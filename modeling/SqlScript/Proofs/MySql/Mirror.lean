import SqlScript.Proofs.Mirror.Statement
import SqlScript.Proofs.MySql.Lineage
import SqlScript.Proofs.MySql.Reading

/-!
The statements of a MySQL script mirror its tree.
-/

namespace SqlScript.MySql

open SqlScript.Tree (Node Element)

/--
The productions that have a form of their own in a statement, so that they are never kept as text.
-/
def structured : List Rule := [
  .simpleSelect, .unionSelect, .parenthesisSelect, .querySpecification, .queryExpression,
  .insertStatement, .singleUpdateStatement, .multipleUpdateStatement, .singleDeleteStatement,
  .multipleDeleteStatement,
  .logicalExpression, .predicateExpression, .binaryComparisonPredicate, .inPredicate,
  .expressionAtomPredicate, .constantExpressionAtom, .fullColumnNameExpressionAtom,
  .tableSourceBase, .atomTableItem, .subqueryTableItem, .tableSourcesItem, .createDatabase]

/--
The production does not go by the name of one that has a form of its own.
-/
def Kept (n : Node Rule) : Prop :=
  Production.name n.rule ∉ structured.map Production.name

section

variable (c : Context)

def mirror : Mirror Rule where
  roles := Read.roles
  context := c
  kept := Kept

structure MirrorsAssignment (a : Assignment) (n : Node Rule) : Prop where
  excerpt : a.excerpt = c.excerptOf n
  column : ∃ m, n.child? .fullColumnName = some m ∧ a.column = Read.columnName c m
  value : ∃ m, n.findChild? (Read.roles.isAssigned .defaultExpression) = some m ∧
    (mirror c).Image (.expr a.value) m

def MirrorsAssignments (as : List Assignment) (n : Node Rule) : Prop :=
  List.Forall₂ (MirrorsAssignment c) as (n.childrenOf .updatedElement)

/--
The one table that a statement changes, up to its alias.
-/
structure IsTarget (t : NamedTable) (n : Node Rule) : Prop where
  rule : n.rule = .singleUpdateStatement ∨ n.rule = .singleDeleteStatement
  name : ∃ m, n.child? .tableName = some m ∧ Read.tableName? c m = some t.name ∧
    t.excerpt = c.excerpt (((n.child? .uid).map (m.span.merge ·.span)).getD m.span)
  asName : t.asName = Read.alias? c n

def MirrorsTables (ts : TableSources) (n : Node Rule) : Prop :=
  (∃ t, IsTarget c t n ∧ ts = ⟨t.excerpt, [t.alone]⟩) ∨
    (n.rule = .multipleUpdateStatement ∨ n.rule = .multipleDeleteStatement) ∧
      ∃ m, n.child? .tableSources = some m ∧ (mirror c).Image (.tables ts) m

inductive MirrorsSource (n : Node Rule) : InsertSource → Prop
  | values {rows : InsertedRows} {m : Node Rule} (child : n.child? .insertStatementValue = some m)
    (excerpt : rows.excerpt = c.excerptOf m) (noSelect : m.findChild? Rule.isSelectForm = none)
    (image : (mirror c).ImageRows rows.rows (m.childrenOf .expressionsWithDefaults)) :
    MirrorsSource n (.values rows)
  | select {s : Select} {m k : Node Rule} (child : n.child? .insertStatementValue = some m)
    (select : m.findChild? Rule.isSelectForm = some k) (image : (mirror c).Image (.select s) k) :
    MirrorsSource n (.select s)
  | set {as : List Assignment} (child : n.child? .insertStatementValue = none)
    (assignments : MirrorsAssignments c as n) : MirrorsSource n (.set as)

structure MirrorsInsert (i : Insert) (n : Node Rule) : Prop where
  rule : n.rule = .insertStatement
  excerpt : i.excerpt = c.excerptOf n
  table : ∃ m, n.child? .tableName = some m ∧ Read.tableName? c m = some i.table
  columns : i.columns = (n.child? .uidList).toList.flatMap
    (·.childNodes.map fun m => (c.identifier m).value)
  source : MirrorsSource c n i.source
  onDuplicate : List.Forall₂ (MirrorsAssignment c) i.onDuplicate
    ((n.child? .duplicateKeyUpdate).toList.flatMap (·.childrenOf .updatedElement))
  onConflict : i.onConflict = none
  returning : i.returning = none

structure MirrorsUpdate (u : Update) (n : Node Rule) : Prop where
  rule : n.rule ∈ updates
  excerpt : u.excerpt = c.excerptOf n
  tables : MirrorsTables c u.tables n
  assignments : MirrorsAssignments c u.assignments n
  condition : (mirror c).ImageCondition .WHERE (some n) u.condition
  ending : (mirror c).Ends u.orderBy u.limit n
  returning : u.returning = none

structure MirrorsDelete (d : Delete) (n : Node Rule) : Prop where
  rule : n.rule ∈ deletes
  excerpt : d.excerpt = c.excerptOf n
  tables : MirrorsTables c d.tables n
  targets : List.Forall₂ (fun t m => Read.tableName? c m = some t) d.targets
    (if n.rule = .singleDeleteStatement then [] else n.childrenOf .tableName)
  condition : (mirror c).ImageCondition .WHERE (some n) d.condition
  ending : (mirror c).Ends d.orderBy d.limit n
  returning : d.returning = none

def isDescribe (rule : Rule) : Bool :=
  rule == .simpleDescribeStatement || rule == .fullDescribeStatement

inductive MirrorsFamily (n : Node Rule) : Statement → Prop
  | select {s : Select} {m : Node Rule} (rule : n.rule = .dmlStatement)
    (child : n.firstChild? = some m) (kind : m.rule ∈ selects)
    (image : (mirror c).Image (.select s) m) : MirrorsFamily n (.select s)
  | insert {i : Insert} {m : Node Rule} (rule : n.rule = .dmlStatement)
    (child : n.firstChild? = some m) (mirrors : MirrorsInsert c i m) : MirrorsFamily n (.insert i)
  | update {u : Update} {m : Node Rule} (rule : n.rule = .dmlStatement)
    (child : n.firstChild? = some m) (mirrors : MirrorsUpdate c u m) : MirrorsFamily n (.update u)
  | delete {d : Delete} {m : Node Rule} (rule : n.rule = .dmlStatement)
    (child : n.firstChild? = some m) (mirrors : MirrorsDelete c d m) : MirrorsFamily n (.delete d)
  | manipulation (rule : n.rule = .dmlStatement) (child : n.firstChild? = none) :
    MirrorsFamily n (.manipulation (c.unstructured n))
  | createDatabase {m name : Node Rule} (rule : n.rule = .ddlStatement)
    (child : n.child? .createDatabase = some m) (named : m.child? .uid = some name) :
    MirrorsFamily n (.createDatabase ⟨c.excerptOf m, c.identifier name, m.hasKeyword .IF⟩)
  | definition (rule : n.rule = .ddlStatement) (child : n.child? .createDatabase = none) :
    MirrorsFamily n (.definition (c.unstructured n))
  | show {m : Node Rule} (rule : n.rule = .administrationStatement)
    (child : n.child? .showStatement = some m) : MirrorsFamily n (.otherRead (c.unstructured m))
  | describe {m : Node Rule} (rule : n.rule = .utilityStatement)
    (child : n.findChild? isDescribe = some m) : MirrorsFamily n (.otherRead (c.unstructured m))
  | unclassified (rule : n.rule ≠ .dmlStatement) (rule' : n.rule ≠ .ddlStatement)
    (noShow : n.rule = .administrationStatement → n.child? .showStatement = none)
    (noDescribe : n.rule = .utilityStatement → n.findChild? isDescribe = none) :
    MirrorsFamily n (.unclassified (c.unstructured n))

inductive MirrorsSlot (n : Node Rule) : Statement → Prop
  | empty (rule : n.rule = .emptyStatement) : MirrorsSlot n (.empty (c.excerptOf n))
  | family {s : Statement} {m : Node Rule} (rule : n.rule = .sqlStatement)
    (child : n.firstChild? = some m) (kind : m.rule ∈ families) (mirrors : MirrorsFamily c m s) :
    MirrorsSlot n s

def Whole : Part → Node Rule → Prop
  | .statement s, n => MirrorsSlot c n s
  | .insert i, n => MirrorsInsert c i n
  | .update u, n => MirrorsUpdate c u n
  | .delete d, n => MirrorsDelete c d n
  | .assignment a, n => MirrorsAssignment c a n
  | .tables ts, n => ∃ t, IsTarget c t n ∧ ts = ⟨t.excerpt, [t.alone]⟩
  | .source s, n => ∃ t, IsTarget c t n ∧ s = t.alone
  | .item i, n => ∃ t, IsTarget c t n ∧ i = .named t
  | _, _ => False

def IsOfKind (n : Node Rule) : Statement → Prop
  | .select _ => n.rule ∈ selects
  | .insert _ => n.rule = .insertStatement
  | .update _ => n.rule ∈ updates
  | .delete _ => n.rule ∈ deletes
  | _ => False

end

variable {c : Context} {text : List Char} {good : Excerpt → Prop} {reader : Reader Rule}
  {depth : Nat} {n m : Node Rule}

theorem kept_of_rule (h : !structured.contains n.rule) : Kept n := by
  have hstructured : n.rule.name ∉ structured.map Rule.name := by
    rw [List.mem_map_of_injective Rule.name_injective]
    simpa using h
  exact hstructured

theorem keeps_of_rule (h : !structured.contains n.rule) : (mirror c).Keeps (c.unstructured n) n :=
  ⟨rfl, kept_of_rule h⟩

open Mirror

section

open SqlScript.Part (Inside)

theorem MirrorsAssignments.inside {as : List Assignment} (h : MirrorsAssignments c as n) :
    ∀ a ∈ as, Inside ((mirror c).Mirrors (Whole c)) n (.assignment a) :=
  Part.inside_of_forall₂ (h.imp fun _ _ => .inr) fun _ => .of_childrenOf

theorem MirrorsTables.inside {ts : TableSources} (h : MirrorsTables c ts n) :
    Inside ((mirror c).Mirrors (Whole c)) n (.tables ts) := by
  obtain h | ⟨-, m, hm, himage⟩ := h
  · exact .self (.inr h)
  · exact .intro (.inl himage) (.of_child? hm)

theorem MirrorsSource.inside {source : InsertSource} (h : MirrorsSource c n source) :
    ∀ q ∈ source.pieces, Inside ((mirror c).Mirrors (Whole c)) n q := by
  cases h with
  | values hchild _ _ hrows =>
    simp only [InsertSource.pieces, List.forall_mem_cons, List.forall_mem_map, Part.inside_excerpt,
      true_and]
    exact fun x hx => inside_of_image (hrows.inside
      (fun k hk => (Node.Contains.of_child? hchild).trans (.of_childrenOf hk)) x hx)
  | select hchild hselect himage =>
    exact List.forall_mem_singleton.2
      (.intro (.inl himage) ((Node.Contains.of_child? hchild).trans (.of_findChild? hselect)))
  | set _ h => exact List.forall_mem_map.2 h.inside

theorem MirrorsInsert.inside {i : Insert} (h : MirrorsInsert c i n) :
    ∀ q ∈ i.pieces, Inside ((mirror c).Mirrors (Whole c)) n q := by
  simp only [Insert.pieces, List.forall_mem_append, List.forall_mem_cons, List.forall_mem_map,
    Part.forall_mem_optional, h.onConflict, h.returning, Part.inside_excerpt,
    Part.inside_tableName, List.not_mem_nil, reduceCtorEq, false_implies, implies_true, and_true,
    true_and]
  refine ⟨h.source.inside, ?_⟩
  refine Part.inside_of_forall₂ (h.onDuplicate.imp fun _ _ => .inr) fun k hk => ?_
  obtain ⟨clause, hclause, hk⟩ := List.mem_flatMap.1 hk
  exact (Node.Contains.of_child? (Option.mem_toList.1 hclause)).trans (.of_childrenOf hk)

theorem MirrorsUpdate.inside {u : Update} (h : MirrorsUpdate c u n) :
    ∀ q ∈ u.pieces, Inside ((mirror c).Mirrors (Whole c)) n q := by
  simp only [Update.pieces, List.forall_mem_append, List.forall_mem_cons, List.forall_mem_map,
    Part.forall_mem_optional, h.returning, Part.inside_excerpt, List.not_mem_nil, reduceCtorEq,
    false_implies, implies_true, and_true, true_and]
  refine ⟨⟨⟨h.tables.inside, h.assignments.inside⟩, fun x hx => inside_of_image ?_⟩,
    fun q hq => inside_of_image (h.ending.inside q hq)⟩
  exact h.condition.inside (by rintro _ ⟨⟩; exact .refl n) x hx

theorem MirrorsDelete.inside {d : Delete} (h : MirrorsDelete c d n) :
    ∀ q ∈ d.pieces, Inside ((mirror c).Mirrors (Whole c)) n q := by
  simp only [Delete.pieces, List.forall_mem_append, List.forall_mem_cons, List.forall_mem_map,
    Part.forall_mem_optional, h.returning, Part.inside_excerpt, Part.inside_tableName,
    List.not_mem_nil, reduceCtorEq, false_implies, implies_true, and_true, true_and]
  refine ⟨⟨h.tables.inside, fun x hx => inside_of_image ?_⟩,
    fun q hq => inside_of_image (h.ending.inside q hq)⟩
  exact h.condition.inside (by rintro _ ⟨⟩; exact .refl n) x hx

theorem MirrorsFamily.inside {s : Statement} (h : MirrorsFamily c n s) (hrule : n.rule ∈ families) :
    ∀ q ∈ s.pieces, Inside ((mirror c).Mirrors (Whole c)) n q := by
  have hkept : ∀ rule ∈ families ++ [.showStatement, .simpleDescribeStatement,
      .fullDescribeStatement], !structured.contains rule := by decide
  have hself : Inside ((mirror c).Mirrors (Whole c)) n (.unstructured (c.unstructured n)) :=
    .self (.inl (.unstructured (keeps_of_rule (hkept _ (List.mem_append_left _ hrule)))))
  have hinside {m : Node Rule} (hm : n.Contains m) (h : !structured.contains m.rule) :
      Inside ((mirror c).Mirrors (Whole c)) n (.unstructured (c.unstructured m)) :=
    .intro (.inl (.unstructured (keeps_of_rule h))) hm
  cases h with
  | select _ hchild _ himage =>
    exact fun q hq => (inside_of_image (himage.select_inside q hq)).trans (.of_firstChild? hchild)
  | insert _ hchild h | update _ hchild h | delete _ hchild h =>
    exact List.forall_mem_singleton.2 (.intro (.inr h) (.of_firstChild? hchild))
  | createDatabase => exact List.forall_mem_singleton.2 (.of_isWord trivial)
  | manipulation | definition | unclassified => exact List.forall_mem_singleton.2 hself
  | «show» _ hchild =>
    refine List.forall_mem_singleton.2 (hinside (.of_child? hchild) ?_)
    rw [Node.rule_of_child? hchild]
    decide
  | describe _ hchild =>
    have hdescribe : ∀ rule ∈ Rule.all, isDescribe rule → !structured.contains rule := by decide
    exact List.forall_mem_singleton.2
      (hinside (.of_findChild? hchild) (hdescribe _ (Rule.mem_all _) (Node.rule_of_findChild? hchild)))

theorem MirrorsSlot.inside {s : Statement} (h : MirrorsSlot c n s) :
    ∀ q ∈ s.pieces, Inside ((mirror c).Mirrors (Whole c)) n q := by
  cases h with
  | empty => simp [Statement.pieces]
  | family _ hchild hkind h =>
    exact fun q hq => (h.inside hkind q hq).trans (.of_firstChild? hchild)

theorem wholes : (mirror c).Wholes (Whole c) where
  inward := Read.roles_inward
  isWhole {p _} h := by
    cases p
    all_goals first
      | contradiction
      | trivial
  inside {p n} h := by
    cases p with
    | statement s => exact MirrorsSlot.inside h
    | insert i => exact MirrorsInsert.inside h
    | update u => exact MirrorsUpdate.inside h
    | delete d => exact MirrorsDelete.inside h
    | assignment a =>
      obtain ⟨m, hm, himage⟩ := MirrorsAssignment.value h
      simpa [Part.pieces, Assignment.pieces] using .intro (.inl himage) (.of_findChild? hm)
    | tables ts =>
      obtain ⟨t, ht, rfl⟩ := h
      have hsource : Whole c (.source t.alone) n := ⟨t, ht, rfl⟩
      simpa [Part.pieces, TableSources.pieces] using .self (.inr hsource)
    | source s =>
      obtain ⟨t, ht, rfl⟩ := h
      have hitem : Whole c (.item (.named t)) n := ⟨t, ht, rfl⟩
      simpa [Part.pieces, NamedTable.alone, TableSource.pieces] using .self (.inr hitem)
    | item i =>
      obtain ⟨t, -, rfl⟩ := h
      simp [Part.pieces, TableItem.pieces]
    | _ => contradiction

end

theorem MirrorsFamily.isOfKind {s : Statement} (h : MirrorsFamily c n s)
    (hrule : n.rule = .dmlStatement) (hm : n.firstChild? = some m) : IsOfKind m s := by
  have hsame : ∀ k, n.firstChild? = some k → k = m := fun k hk => Option.some.inj (hk.symm.trans hm)
  have hother : ∀ rule, n.rule = rule → rule ≠ .dmlStatement → IsOfKind m s :=
    fun _ h hne => absurd (h.symm.trans hrule) hne
  cases h with
  | select _ hchild hkind => exact hsame _ hchild ▸ hkind
  | insert _ hchild h => exact hsame _ hchild ▸ h.rule
  | update _ hchild h => exact hsame _ hchild ▸ h.rule
  | delete _ hchild h => exact hsame _ hchild ▸ h.rule
  | manipulation _ hchild =>
    rw [hm] at hchild
    contradiction
  | createDatabase h | definition h | «show» h | describe h => exact hother _ h (by decide)
  | unclassified h => exact absurd hrule h

namespace Read

theorem element_image (hn : n.Formed) (hrule : n.rule ∈ elements) :
    ∃ e, selectElement? c n = some e ∧ (mirror c).Image (.element e) n := by
  have hkeeps (h : !structured.contains n.rule) :
      ∀ body, some (c.unstructured n) = some body → (mirror c).Keeps body n := by
    rintro _ ⟨⟩
    exact keeps_of_rule h
  simp only [elements, List.mem_cons, List.not_mem_nil, or_false] at hrule
  obtain h | h | h | h := hrule
  · have hread : selectElement? c n =
        some (.star ⟨c.excerptOf n, c.dottedName <$> n.child? .fullId⟩) := by
      unfold selectElement?
      rw [h]
    exact ⟨_, hread, .element hread rfl (by rintro _ ⟨⟩)⟩
  · obtain ⟨column, hcolumn⟩ := hn.exists_child h (· == .fullColumnName) (by decide)
    change n.child? .fullColumnName = some column at hcolumn
    have hread : selectElement? c n =
        some (.column ⟨c.excerptOf n, columnName c column, alias? c n⟩) := by
      unfold selectElement?
      rw [h, hcolumn]
      rfl
    exact ⟨_, hread, .element hread rfl (by rintro _ ⟨⟩)⟩
  · have hread : selectElement? c n = some (.function (c.unstructured n)) := by
      unfold selectElement?
      rw [h]
    exact ⟨_, hread, .element hread rfl (hkeeps (by rw [h]; decide))⟩
  · have hread : selectElement? c n = some (.expression (c.unstructured n)) := by
      unfold selectElement?
      rw [h]
    exact ⟨_, hread, .element hread rfl (hkeeps (by rw [h]; decide))⟩

theorem atom_image (hn : n.Formed) (hrule : Rule.isAtomForm n.rule) :
    (mirror c).Image (.atom (atom c n)) n := by
  refine .atom rfl fun body hbody => ?_
  unfold atom at hbody
  split at hbody
  · rename_i h
    obtain ⟨k, hk⟩ := hn.exists_child h (· == .constant) (by decide)
    rw [Node.child?, hk] at hbody
    contradiction
  · rename_i h
    obtain ⟨k, hk⟩ := hn.exists_child h (· == .fullColumnName) (by decide)
    rw [Node.child?, hk] at hbody
    contradiction
  · rename_i hconstant hcolumn
    have hrules : ∀ r ∈ Rule.all, Rule.isAtomForm r → r ≠ .constantExpressionAtom →
        r ≠ .fullColumnNameExpressionAtom → !structured.contains r := by decide
    cases hbody
    exact keeps_of_rule (hrules _ n.rule.mem_all hrule hconstant hcolumn)

theorem where_introduces : conditionShape.Introduces .WHERE Rule.isExpressionForm :=
  .opt (.behind _ _)

theorem cases_of_joinSpec (hn : n.Formed) (hrule : n.rule = .joinSpec) :
    (n.hasKeyword .ON = true ∧
      ∃ m, n.findChild? Rule.isExpressionForm = some m ∧ n.Follows .ON m) ∨
    n.hasKeyword .ON = false ∧ ∃ m, n.child? .uidList = some m :=
  hn.cases_of_joinCondition hrule rfl (by decide) (by decide)
    (.append (.keyword (by decide)) (.parens (.node _ _)))

theorem rule_of_mem_names (hn : n.Formed) (hrule : n.rule = .uidList) (hm : m ∈ n.childNodes) :
    m.rule = .uid := by
  have hrules : ∀ rule ∈ (shape .uidList).rules, rule = .uid := by decide
  exact hrules _ (hn.rule_mem_of_rule hrule hm)

theorem mirror_fits : (mirror c).Fits text where
  tail {n} h := by
    have hrules : ∀ r ∈ Rule.all, r = .lockClause ∨ r = .groupByClause ∨ r = .orderByClause →
        !structured.contains r := by decide
    exact kept_of_rule (hrules _ n.rule.mem_all h)
  element {n m} hn hrule hm := by
    have hrules : (shape .selectElements).rules.all (elements.contains ·) := by decide
    have hmem := hn.formed.rule_mem_of_rule hrule hm
    exact element_image (hn.formed.child hm) (by simpa using List.all_eq_true.1 hrules _ hmem)
  listed {n m} hn hrule hm := by
    have hrules : ∀ rule ∈ (shape .tableSources).rules,
        rule = .tableSourceBase ∨ !structured.contains rule := by decide
    exact (hrules _ (hn.rule_mem_of_rule hrule hm)).imp id kept_of_rule
  item {n} h := by
    have hrules : ∀ r ∈ Rule.all, roles.isJoinedItem r →
        r = .atomTableItem ∨ r = .subqueryTableItem ∨ r = .tableSourcesItem := by decide
    obtain h | h | h := hrules _ n.rule.mem_all h
    · exact .inl h
    · exact .inr (.inl h)
    · exact .inr (.inr (.inl h))
  joinCondition := cases_of_joinSpec
  names := rule_of_mem_names
  filter {n clause m} hn hrule hclause hm := by
    have hshape : (shape .fromClause).Introduces .WHERE Rule.isExpressionForm :=
      .append (.of_bars (by decide)) where_introduces
    exact (hn.child (Node.mem_childNodes_of_child? hclause)).follows (Node.rule_of_child? hclause)
      hshape hm
  having hn hrule hm := hn.follows hrule (.behind _ _) hm
  expression {n} hn hrule hnone := by
    have hrules : ∀ r ∈ Rule.all, Rule.isExpressionForm r →
        r = .logicalExpression ∨ r = .predicateExpression ∨ !structured.contains r := by decide
    obtain h | h | h := hrules _ n.rule.mem_all hrule
    · obtain ⟨operator, hsome, -⟩ := exists_connective hn h
      exact absurd (hsome.symm.trans hnone) (by simp)
    · exact .inl h
    · exact .inr (kept_of_rule h)
  predicate {n} h := by
    have hrules : ∀ r ∈ Rule.all, Rule.isPredicateForm r → r = .binaryComparisonPredicate ∨
        r = .inPredicate ∨ r = .expressionAtomPredicate ∨ !structured.contains r := by decide
    obtain h | h | h | h := hrules _ n.rule.mem_all h
    · exact .inl h
    · exact .inr (.inl h)
    · exact .inr (.inr (.inl h))
    · exact .inr (.inr (.inr (kept_of_rule h)))
  atom hn hrule hm := atom_image (hn.formed.child (Node.mem_childNodes_of_findChild? hm))
    (Node.rule_of_findChild? hm)

theorem images_values (hc : c.Cuts text good) (depth : Nat) :
    (Reader.ofDepth roles c depth).ImagesValues (mirror c) text depth .defaultExpression where
  toImages := Reader.ofDepth_images mirror_fits (roles_tells hc) depth
  default {n} h := by
    have hnone : connectiveOf? c n = none := by
      unfold connectiveOf?
      rw [h]
    exact ⟨Reader.expression_ofDepth depth hnone (by rw [h]; decide),
      kept_of_rule (by rw [h]; decide)⟩

theorem change_introduces {rule : Rule} (h : rule ∈ updates ++ deletes) :
    (shape rule).Introduces .WHERE Rule.isExpressionForm := by
  have hassignments : assignmentsShape.Introduces .WHERE Rule.isExpressionForm :=
    .append (.of_bars (by decide)) (.append (.of_bars (by decide)) where_introduces)
  simp only [updates, deletes, List.cons_append, List.nil_append, List.mem_cons,
    List.not_mem_nil, or_false] at h
  obtain rfl | rfl | rfl | rfl := h
  · exact .append (.of_bars (by decide)) (.append (.of_bars (by decide))
      (.append (.of_bars (by decide)) (.append hassignments (.of_bars (by decide)))))
  · exact .append (.of_bars (by decide)) (.append (.of_bars (by decide)) hassignments)
  · exact .append (.of_bars (by decide)) (.append (.of_bars (by decide))
      (.append (.of_bars (by decide)) (.append (.of_bars (by decide))
        (.append where_introduces (.of_bars (by decide))))))
  · exact .append (.of_bars (by decide)) (.append (.of_bars (by decide))
      (.append (.of_bars (by decide)) where_introduces))

theorem exists_tableName (hn : n.Formed) (hrule : n.rule = .tableName) :
    ∃ name, tableName? c n = some name := by
  obtain ⟨m, hm⟩ := hn.exists_child hrule (· == .fullId) (by decide)
  unfold tableName?
  rw [Node.child?, hm]
  exact ⟨_, rfl⟩

theorem singleTable?_mirrors (hn : n.Formed)
    (hrule : n.rule = .singleUpdateStatement ∨ n.rule = .singleDeleteStatement) :
    ∃ ts, singleTable? c n = some ts ∧ MirrorsTables c ts n := by
  have hrequires : (shape n.rule).requires (· == .tableName) := by
    obtain h | h := hrule
    all_goals
      rw [h]
      decide
  obtain ⟨m, hm⟩ := hn.exists_child rfl (· == .tableName) hrequires
  change n.child? .tableName = some m at hm
  obtain ⟨name, hname⟩ := exists_tableName (c := c)
    (hn.child (Node.mem_childNodes_of_child? hm)) (Node.rule_of_child? hm)
  unfold singleTable?
  simp only [hm, hname, Option.bind_eq_bind, Option.bind_some]
  refine ⟨_, rfl, .inl ⟨⟨_, name, alias? c n⟩, ⟨hrule, ⟨m, hm, hname, ?_⟩, rfl⟩, rfl⟩⟩
  cases n.child? .uid <;> rfl

section

variable (hreader : reader.ImagesValues (mirror c) text depth .defaultExpression)

include hreader

theorem assignmentsOf_mirrors (hn : n.Ready c text depth) :
    MirrorsAssignments c (assignmentsOf c reader n) n := by
  refine forall₂_filterMap fun m hm => ?_
  have hrule : m.rule = .updatedElement := eq_of_beq (Node.rule_of_mem_childrenThat hm)
  have hm := hn.below (Node.mem_childNodes_of_mem_childrenOf hm)
  obtain ⟨value, hvalue⟩ :=
    hm.formed.exists_child hrule (roles.isAssigned .defaultExpression) (by decide)
  obtain ⟨column, hcolumn⟩ := hm.formed.exists_child hrule (· == .fullColumnName) (by decide)
  have himage := Reading.value_image hreader
    (hm.below (Node.mem_childNodes_of_findChild? hvalue)) (Node.rule_of_findChild? hvalue)
  exact ⟨_, Option.bind_eq_some_iff.2 ⟨value, hvalue, Option.bind_eq_some_iff.2
    ⟨column, hcolumn, rfl⟩⟩, rfl, ⟨column, hcolumn, rfl⟩, value, hvalue, himage⟩

theorem insertSource?_mirrors (hn : n.Ready c text depth) :
    ∃ source, insertSource? c reader n = some source ∧ MirrorsSource c n source := by
  unfold insertSource?
  cases hvalue : n.child? .insertStatementValue with
  | none => exact ⟨_, rfl, .set hvalue (assignmentsOf_mirrors hreader hn)⟩
  | some value =>
    have hready := hn.below (Node.mem_childNodes_of_child? hvalue)
    dsimp only
    cases hselect : value.findChild? Rule.isSelectForm with
    | some select =>
      obtain ⟨s, hs, himage⟩ := hreader.select?
        (hready.below (Node.mem_childNodes_of_findChild? hselect)) (Node.rule_of_findChild? hselect)
      dsimp only
      rw [hs]
      exact ⟨_, rfl, .select hvalue hselect himage⟩
    | none =>
      have hassigned : (shape .expressionsWithDefaults).rules.all
          (roles.isAssigned .defaultExpression) := by decide
      have hrows := Reading.rows_image hreader (value.childrenOf .expressionsWithDefaults)
        .expressionsWithDefaults hassigned fun row hrow =>
          ⟨hready.below (Node.mem_childNodes_of_mem_childrenOf hrow),
            eq_of_beq (Node.rule_of_mem_childrenThat hrow)⟩
      exact ⟨_, rfl, .values hvalue rfl hselect hrows⟩

omit hreader in
theorem columns_eq (hn : n.Formed) : ((n.child? .uidList).map (Reading.names roles c)).getD [] =
    (n.child? .uidList).toList.flatMap (·.childNodes.map fun m => (c.identifier m).value) := by
  cases hlist : n.child? .uidList with
  | none => rfl
  | some list =>
    have hformed := hn.child (Node.mem_childNodes_of_child? hlist)
    have hnames := Reading.names_eq (r := roles) (c := c) fun m hm =>
      rule_of_mem_names hformed (Node.rule_of_child? hlist) hm
    simpa using hnames

theorem onDuplicate_mirrors (hn : n.Ready c text depth) : List.Forall₂ (MirrorsAssignment c)
    (((n.child? .duplicateKeyUpdate).map (assignmentsOf c reader)).getD [])
    ((n.child? .duplicateKeyUpdate).toList.flatMap (·.childrenOf .updatedElement)) := by
  cases hk : n.child? .duplicateKeyUpdate with
  | none => exact .nil
  | some k =>
    simpa [MirrorsAssignments] using
      assignmentsOf_mirrors hreader (hn.below (Node.mem_childNodes_of_child? hk))

theorem insert?_mirrors (hn : n.Ready c text depth) (hrule : n.rule = .insertStatement) :
    ∃ i, insert? c reader n = some i ∧ MirrorsInsert c i n := by
  obtain ⟨source, hsource, hmirrors⟩ := insertSource?_mirrors hreader hn
  obtain ⟨m, hm⟩ := hn.formed.exists_child hrule (· == .tableName) (by decide)
  obtain ⟨table, htable⟩ := exists_tableName (c := c)
    (hn.formed.child (Node.mem_childNodes_of_findChild? hm)) (Node.rule_of_child? hm)
  have hread : n.child? .tableName >>= tableName? c = some table :=
    Option.bind_eq_some_iff.2 ⟨m, hm, htable⟩
  unfold insert?
  rw [hsource, hread]
  exact ⟨_, rfl, hrule, rfl, ⟨m, hm, htable⟩, columns_eq hn.formed, hmirrors,
    onDuplicate_mirrors hreader hn, rfl, rfl⟩

theorem condition?_mirrors (hn : n.Ready c text depth) (hrule : n.rule ∈ updates ++ deletes) :
    (mirror c).ImageCondition .WHERE (some n) (Reading.condition? roles reader n) :=
  Reading.condition?_image .WHERE (some n) hreader.toImages (by rintro k ⟨⟩; exact hn)
    (by rintro k m ⟨⟩ hm; exact hn.formed.follows rfl (change_introduces hrule) hm)

theorem joinedTables_mirrors (hn : n.Ready c text depth)
    (hrule : n.rule = .multipleUpdateStatement ∨ n.rule = .multipleDeleteStatement) :
    ∃ m, n.child? .tableSources = some m ∧ MirrorsTables c (reader.tables m) n := by
  have hrequires : (shape n.rule).requires (· == .tableSources) := by
    obtain h | h := hrule
    all_goals
      rw [h]
      decide
  obtain ⟨m, hm⟩ := hn.formed.exists_child rfl (· == .tableSources) hrequires
  exact ⟨m, hm, .inr ⟨hrule, m, hm, hreader.tables
    (hn.below (Node.mem_childNodes_of_child? hm)) (Node.rule_of_child? hm)⟩⟩

theorem update?_mirrors (hn : n.Ready c text depth) (hrule : n.rule ∈ updates) :
    ∃ u, update? c reader n = some u ∧ MirrorsUpdate c u n := by
  have hfits : (mirror c).Fits text := mirror_fits
  have hrule' : n.rule = .singleUpdateStatement ∨ n.rule = .multipleUpdateStatement := by
    simpa [updates] using hrule
  obtain ⟨ts, hts, htables⟩ : ∃ ts, update? c reader n = some {
        excerpt := c.excerptOf n
        tables := ts
        assignments := assignmentsOf c reader n
        condition := Reading.condition? roles reader n
        orderBy := Reading.unstructured? c n .orderByClause
        limit := Reading.limit? roles c n
        returning := none } ∧ MirrorsTables c ts n := by
    unfold update?
    obtain h | h := hrule'
    · obtain ⟨ts, hts, htables⟩ := singleTable?_mirrors (c := c) hn.formed (.inl h)
      exact ⟨ts, by rw [if_pos h, hts]; rfl, htables⟩
    · obtain ⟨m, hm, htables⟩ := joinedTables_mirrors hreader hn (.inl h)
      exact ⟨_, by rw [if_neg (by rw [h]; decide), hm]; rfl, htables⟩
  exact ⟨_, hts, hrule, rfl, htables, assignmentsOf_mirrors hreader hn,
    condition?_mirrors hreader hn (List.mem_append_left _ hrule), Reading.ends_image hfits, rfl⟩

omit hreader in
theorem targets_mirror (hn : n.Formed) :
    List.Forall₂ (fun t m => tableName? c m = some t)
      ((n.childrenOf .tableName).filterMap (tableName? c)) (n.childrenOf .tableName) := by
  refine forall₂_filterMap fun m hm => ?_
  obtain ⟨name, hname⟩ := exists_tableName (c := c)
    (hn.child (Node.mem_childNodes_of_mem_childrenOf hm))
    (eq_of_beq (Node.rule_of_mem_childrenThat hm))
  exact ⟨name, hname, hname⟩

theorem delete?_mirrors (hn : n.Ready c text depth) (hrule : n.rule ∈ deletes) :
    ∃ d, delete? c reader n = some d ∧ MirrorsDelete c d n := by
  have hfits : (mirror c).Fits text := mirror_fits
  have hcondition := condition?_mirrors hreader hn (List.mem_append_right _ hrule)
  have hrule' : n.rule = .singleDeleteStatement ∨ n.rule = .multipleDeleteStatement := by
    simpa [deletes] using hrule
  obtain ⟨ts, targets, hts, htables, htargets⟩ : ∃ ts targets, delete? c reader n = some {
        excerpt := c.excerptOf n
        tables := ts
        targets
        condition := Reading.condition? roles reader n
        orderBy := Reading.unstructured? c n .orderByClause
        limit := Reading.limit? roles c n
        returning := none } ∧ MirrorsTables c ts n ∧
      List.Forall₂ (fun t m => tableName? c m = some t) targets
        (if n.rule = .singleDeleteStatement then [] else n.childrenOf .tableName) := by
    unfold delete?
    obtain h | h := hrule'
    · obtain ⟨ts, hts, htables⟩ := singleTable?_mirrors (c := c) hn.formed (.inr h)
      exact ⟨ts, [], by simp [h, hts], htables, by rw [if_pos h]; exact .nil⟩
    · obtain ⟨m, hm, htables⟩ := joinedTables_mirrors hreader hn (.inr h)
      refine ⟨_, (n.childrenOf .tableName).filterMap (tableName? c), by simp [h, hm], htables, ?_⟩
      rw [if_neg (by rw [h]; decide)]
      exact targets_mirror hn.formed
  exact ⟨_, hts, hrule, rfl, htables, htargets, hcondition, Reading.ends_image hfits, rfl⟩

theorem manipulationOf_mirrors (hn : n.Ready c text depth) (hrule : n.rule = .dmlStatement) :
    MirrorsFamily c n (manipulationOf c reader n) := by
  have h := hn.formed.matches_children
  rw [hrule] at h
  obtain ⟨m, hchildren, hm, -⟩ | h := h
  · have hfirst : n.firstChild? = some m := by
      unfold Node.firstChild?
      rw [Node.childNodes_eq, hchildren]
      rfl
    have hready : m.Ready c text depth := hn.below (List.mem_of_mem_head? hfirst)
    obtain ⟨s, hs, hmirrors⟩ : ∃ s, manipulationOf c reader n = s ∧ MirrorsFamily c n s := by
      unfold manipulationOf
      rw [hfirst]
      simp only [changes, updates, deletes, selects, List.cons_append, List.nil_append,
        List.mem_cons, List.not_mem_nil, or_false] at hm
      rcases hm with h | h | h | h | h | h | h | h
      case inl =>
        obtain ⟨i, hi, hmirrors⟩ := insert?_mirrors hreader hready h
        exact ⟨.insert i, by simp [h, hi], .insert hrule hfirst hmirrors⟩
      iterate 2
        obtain ⟨u, hu, hmirrors⟩ := update?_mirrors hreader hready (by rw [h]; decide)
        exact ⟨.update u, by simp [h, hu], .update hrule hfirst hmirrors⟩
      iterate 2
        obtain ⟨d, hd, hmirrors⟩ := delete?_mirrors hreader hready (by rw [h]; decide)
        exact ⟨.delete d, by simp [h, hd], .delete hrule hfirst hmirrors⟩
      all_goals
        have hmem : m.rule ∈ selects := by rw [h]; decide
        have hform : Rule.isSelectForm m.rule := by rw [h]; decide
        obtain ⟨s, hs, himage⟩ := hreader.select? hready hform
        exact ⟨.select s, by simp [h, hs], .select hrule hfirst hmem himage⟩
    rwa [hs]
  · have hfirst : n.firstChild? = none := by
      unfold Node.firstChild?
      rw [Node.childNodes_eq, Tree.nodesOf_eq_nil h.1]
      rfl
    unfold manipulationOf
    rw [hfirst]
    exact .manipulation hrule hfirst

omit hreader in
theorem createDatabase_mirrors (hn : n.Formed) (hrule : n.rule = .ddlStatement)
    (hm : n.child? .createDatabase = some m) :
    ∃ create, createDatabase? c m = some create ∧ MirrorsFamily c n (.createDatabase create) := by
  obtain ⟨name, hname⟩ := (hn.child (Node.mem_childNodes_of_child? hm)).exists_child
    (Node.rule_of_child? hm) (· == .uid) (by decide)
  exact ⟨_, Option.bind_eq_some_iff.2 ⟨name, hname, rfl⟩, .createDatabase hrule hm hname⟩

theorem statementOfFamily_mirrors (hn : n.Ready c text depth) :
    MirrorsFamily c n (statementOfFamily c reader n) := by
  unfold statementOfFamily
  split
  · rename_i h
    exact manipulationOf_mirrors hreader hn h
  · rename_i h
    cases hm : n.child? .createDatabase with
    | none => exact .definition h hm
    | some m =>
      obtain ⟨create, hcreate, hmirrors⟩ := createDatabase_mirrors (c := c) hn.formed h hm
      rw [Option.bind_eq_bind, Option.bind_some, hcreate]
      exact hmirrors
  · rename_i h
    split
    · rename_i m hm
      exact .show h hm
    · rename_i hnone
      exact .unclassified (by rw [h]; decide) (by rw [h]; decide) (fun _ => hnone)
        fun h' => by rw [h] at h'; contradiction
  · rename_i h
    split
    · rename_i m hm
      exact .describe h hm
    · rename_i hnone
      exact .unclassified (by rw [h]; decide) (by rw [h]; decide)
        (fun h' => by rw [h] at h'; contradiction) fun _ => hnone
  · rename_i hdml hddl hadministration hutility
    exact .unclassified hdml hddl (fun h => absurd h hadministration) fun h => absurd h hutility

omit hreader in
theorem keeps_of_announced {s : Statement}
    (h : ∀ rules, n.leaves.head?.bind manipulated? = some rules →
      ∃ m : Node Rule, m.rule ∈ rules ∧ IsOfKind m s) : s.Keeps n := by
  intro t ht
  rw [ht, Option.bind_some] at h
  split
  case h_6 =>
    -- Any other token says nothing of the kind of its statement.
    trivial
  all_goals
    rename_i hkind
    rw [manipulated?, hkind] at h
    obtain ⟨m, hm, hs⟩ := h _ rfl
    cases s
    all_goals first
      | exact ⟨_, rfl⟩
      | grind [IsOfKind, selects, updates, deletes]

theorem statementOf_agrees (hn : n.Ready c text depth)
    (hrule : n.rule = .emptyStatement ∨ n.rule = .sqlStatement) :
    (mirror c).Agrees (Whole c) n (statementOf c reader n) := by
  have hmatches := hn.formed.matches_children
  unfold statementOf
  obtain h | h := hrule
  · rw [h] at hmatches ⊢
    obtain ⟨t, hchildren, ht⟩ := hmatches
    exact .of_whole wholes (.empty h)
      (Statement.keeps_semicolon hchildren (TokenKind.eq_semicolon_of_alike ht))
  · rw [h] at hmatches
    obtain ⟨family, hchildren, hfamily, hannounced⟩ := hmatches
    have hfirst : n.firstChild? = some family := by
      unfold Node.firstChild?
      rw [Node.childNodes_eq, hchildren]
      rfl
    have hmirrors := statementOfFamily_mirrors hreader (hn.below (List.mem_of_mem_head? hfirst))
    rw [h, hfirst]
    refine .of_whole wholes (.family h hfirst hfamily hmirrors)
      (keeps_of_announced fun rules hrules => ?_)
    have hleaves : n.leaves = family.leaves := by
      rw [Node.leaves_eq, hchildren, Tree.leaves_node, ← Node.leaves_eq]
    rw [hleaves] at hrules
    unfold isAnnounced at hannounced
    rw [hrules, Option.all_some, Bool.and_eq_true] at hannounced
    obtain ⟨hdml, hfound⟩ := hannounced
    obtain ⟨m, hm, hmem⟩ := (Option.any_eq_true _ _).1 hfound
    exact ⟨m, List.contains_iff_mem.1 hmem, hmirrors.isOfKind (eq_of_beq hdml) hm⟩

end

end Read

section

variable {root : Node Rule}

theorem ready_of_mem_slots (hroot : root.Genuine c text) (hn : n ∈ slots root) :
    n.Ready c text root.height ∧ (n.rule = .emptyStatement ∨ n.rule = .sqlStatement) := by
  have hkinds : ∀ rule ∈ (shape .sqlStatements).rules,
      rule = .emptyStatement ∨ rule = .sqlStatement := by decide
  exact (hroot.ready_of_mem_slots hn).imp_right (hkinds _)

theorem forall₂_statementsOf {R : Node Rule → Statement → Prop}
    (h : ∀ n ∈ slots root, R n (Read.statementOf c (.ofTree Read.roles c root) n)) :
    List.Forall₂ R (slots root) (statementsOf c root) := by
  rw [statementsOf_eq_slots]
  exact List.forall₂_map_right_iff.2 (List.forall₂_same.2 h)

theorem statementsOf_agree (hc : c.Cuts text good) (hroot : root.Genuine c text) :
    List.Forall₂ ((mirror c).Agrees (Whole c)) (slots root) (statementsOf c root) := by
  refine forall₂_statementsOf fun n hn => ?_
  obtain ⟨hready, hrule⟩ := ready_of_mem_slots hroot hn
  exact Read.statementOf_agrees (Read.images_values hc root.height) hready hrule

end

end SqlScript.MySql
