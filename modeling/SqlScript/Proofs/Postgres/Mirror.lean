import SqlScript.Proofs.Mirror.Statement
import SqlScript.Proofs.Postgres.Lineage

/-!
The statements of a PostgreSQL script mirror its tree.
-/

namespace SqlScript.Postgres

open SqlScript.Tree (Node Element)

def structured : List Rule := [
  .selectStmt, .plainSelect, .setOperationSelect, .parenthesizedSelect, .simpleSelectPrimary,
  .selectWithParens,
  .insertStmt, .updateStmt, .deleteStmt,
  .aExprAnd, .aExprOr, .aExprPredicate, .aExprCompare, .aExprIn, .aExprPrimary, .aexprConst,
  .columnref,
  .tableRef, .relationRef, .subqueryRef, .joinedTableRef, .createdbStmt]

/--
The kinds of statement that are kept as a change of rows without being looked into.
-/
def manipulations : List Rule := [.withStmt, .callStmt, .mergeStmt, .valuesStmt]

def others : List Rule := [
  .variableSetStmt, .transactionStmt, .prepareStmt, .grantStmt, .utilityStmt]

/--
The production does not go by the name of one that has a form of its own, or it is the reference to
all columns of a table.
-/
def Kept (n : Node Rule) : Prop :=
  Production.name n.rule ∉ structured.map Production.name ∨ n.rule = .columnref ∧ n.hasToken .star

/--
The targets of all assignments of a statement, each with the clause that it stands in.
-/
def assignedTargets (n : Node Rule) : List (Node Rule × Node Rule) :=
  (n.childrenThat isSetClause).flatMap fun clause => (clause.childrenOf .setTarget).map (clause, ·)

section

variable (c : Context)

def mirror : Mirror Rule where
  roles := Read.roles
  context := c
  kept := Kept

/--
The value of a target: what stands behind the sign, or the target's own share of it.
-/
def IsValue (clause target value : Node Rule) : Prop :=
  clause.rule = .setClause ∧
      clause.findChild? (Read.roles.isAssigned .setToDefault) = some value ∨
    clause.rule = .multiSetClause ∧ (target, value) ∈ Read.pairedTargets clause

structure MirrorsAssignment (a : Assignment) (clause target : Node Rule) : Prop where
  excerpt : a.excerpt = c.excerptOf clause
  column : Read.targetColumn? c target = some a.column
  value : ∃ m, IsValue clause target m ∧ (mirror c).Image (.expr a.value) m

inductive MirrorsTables (clause : Rule) (n : Node Rule) : TableSources → Prop
  | alone {t : NamedTable} {m : Node Rule} (child : n.child? .relationRef = some m)
    (target : (mirror c).Image (.item (.named t)) m)
    (nothing : n.child? clause >>= (·.child? .fromList) = none) :
    MirrorsTables clause n ⟨c.excerptOf m, [t.alone]⟩
  | joined {t : NamedTable} {ts : TableSources} {m list : Node Rule}
    (child : n.child? .relationRef = some m) (target : (mirror c).Image (.item (.named t)) m)
    (listed : n.child? clause >>= (·.child? .fromList) = some list)
    (added : (mirror c).Image (.tables ts) list) :
    MirrorsTables clause n ⟨c.excerpt (m.span.merge list.span), t.alone :: ts.sources⟩

inductive MirrorsSource (n : Node Rule) : InsertSource → Prop
  | values {rows : InsertedRows} {m : Node Rule} (child : n.child? .valuesClause = some m)
    (excerpt : rows.excerpt = c.excerptOf m)
    (image : (mirror c).ImageRows rows.rows (m.childrenOf .valuesRow)) :
    MirrorsSource n (.values rows)
  | defaultValues {m : Node Rule} (noValues : n.child? .valuesClause = none)
    (child : n.child? .defaultValues = some m) :
    MirrorsSource n (.defaultValues (c.excerptOf m))
  | select {s : Select} {m : Node Rule} (noValues : n.child? .valuesClause = none)
    (noDefaults : n.child? .defaultValues = none)
    (child : n.findChild? Rule.isSelectForm = some m) (image : (mirror c).Image (.select s) m) :
    MirrorsSource n (.select s)

structure MirrorsInsert (i : Insert) (n : Node Rule) : Prop where
  rule : n.rule = .insertStmt
  excerpt : i.excerpt = c.excerptOf n
  table : ∃ target m, n.child? .insertTarget = some target ∧
    target.child? .qualifiedName = some m ∧ i.table = Read.tableName c m
  columns : List.Forall₂
    (fun name m => ∃ t, m.tokens.head? = some t ∧ name = (Identifier.ofRaw (c.tokenText t)).value)
    i.columns ((n.child? .insertColumnList).toList.flatMap (·.childrenOf .setTarget))
  source : MirrorsSource c n i.source
  onDuplicate : i.onDuplicate = []
  onConflict : Option.Rel (mirror c).Keeps i.onConflict (n.child? .onConflictClause)
  returning : Option.Rel (mirror c).Keeps i.returning (n.child? .returningClause)

structure MirrorsUpdate (u : Update) (n : Node Rule) : Prop where
  rule : n.rule = .updateStmt
  excerpt : u.excerpt = c.excerptOf n
  tables : MirrorsTables c .fromClause n u.tables
  assignments : List.Forall₂ (fun a p => MirrorsAssignment c a p.1 p.2) u.assignments
    (assignedTargets n)
  condition : (mirror c).ImageCondition .WHERE (n.child? .whereClause) u.condition
  orderBy : u.orderBy = none
  limit : u.limit = none
  returning : Option.Rel (mirror c).Keeps u.returning (n.child? .returningClause)

structure MirrorsDelete (d : Delete) (n : Node Rule) : Prop where
  rule : n.rule = .deleteStmt
  excerpt : d.excerpt = c.excerptOf n
  tables : MirrorsTables c .usingClause n d.tables
  targets : d.targets = []
  condition : (mirror c).ImageCondition .WHERE (n.child? .whereClause) d.condition
  orderBy : d.orderBy = none
  limit : d.limit = none
  returning : Option.Rel (mirror c).Keeps d.returning (n.child? .returningClause)

inductive MirrorsForm (n : Node Rule) : Statement → Prop
  | select {s : Select} {m : Node Rule} (rule : n.rule = .selectStmt)
    (child : n.firstChild? = some m) (image : (mirror c).Image (.select s) m) :
    MirrorsForm n (.select s)
  | insert {i : Insert} (mirrors : MirrorsInsert c i n) : MirrorsForm n (.insert i)
  | update {u : Update} (mirrors : MirrorsUpdate c u n) : MirrorsForm n (.update u)
  | delete {d : Delete} (mirrors : MirrorsDelete c d n) : MirrorsForm n (.delete d)
  | createDatabase {name : Node Rule} (rule : n.rule = .createdbStmt)
    (named : n.child? .colId = some name) :
    MirrorsForm n (.createDatabase ⟨c.excerptOf n, c.identifier name, n.hasKeyword .IF⟩)
  | definition (rule : n.rule = .ddlStmt) : MirrorsForm n (.definition (c.unstructured n))
  | otherRead (rule : n.rule = .variableShowStmt ∨ n.rule = .explainStmt) :
    MirrorsForm n (.otherRead (c.unstructured n))
  | manipulation (rule : n.rule ∈ manipulations) : MirrorsForm n (.manipulation (c.unstructured n))
  | unclassified (rule : n.rule ∈ others) : MirrorsForm n (.unclassified (c.unstructured n))

inductive MirrorsSlot (n : Node Rule) : Statement → Prop
  | empty (rule : n.rule = .emptyStmt) : MirrorsSlot n (.empty (c.excerptOf n))
  | form {s : Statement} {m : Node Rule} (rule : n.rule = .stmt) (child : n.firstChild? = some m)
    (mirrors : MirrorsForm c m s) : MirrorsSlot n s

def Whole : Part → Node Rule → Prop
  | .statement s, n => MirrorsSlot c n s
  | .insert i, n => MirrorsInsert c i n
  | .update u, n => MirrorsUpdate c u n
  | .delete d, n => MirrorsDelete c d n
  | .assignment a, n => ∃ target ∈ n.childrenOf .setTarget, MirrorsAssignment c a n target
  | .tables ts, n => ∃ clause, MirrorsTables c clause n ts
  | .source s, n => ∃ t, (mirror c).Image (.item (.named t)) n ∧ s = t.alone
  | _, _ => False

def IsOfKind (n : Node Rule) : Statement → Prop
  | .select _ => n.rule = .selectStmt
  | .insert _ => n.rule = .insertStmt
  | .update _ => n.rule = .updateStmt
  | .delete _ => n.rule = .deleteStmt
  | _ => n.rule ∉ [.selectStmt, .insertStmt, .updateStmt, .deleteStmt]

end

variable {c : Context} {root : Node Rule} {text : List Char} {good : Excerpt → Prop}
  {reader : Reader Rule} {depth : Nat} {n m : Node Rule}

theorem kept_of_rule (h : !structured.contains n.rule) : Kept n := by
  have hstructured : n.rule.name ∉ structured.map Rule.name := by
    rw [List.mem_map_of_injective Rule.name_injective]
    simpa using h
  exact .inl hstructured

theorem keeps_of_rule (h : !structured.contains n.rule) : (mirror c).Keeps (c.unstructured n) n :=
  ⟨rfl, kept_of_rule h⟩

open Mirror

section

open SqlScript.Part (Inside)

theorem contains_of_isValue {clause target value : Node Rule} (h : IsValue clause target value) :
    clause.Contains value := by
  obtain ⟨-, h⟩ | ⟨-, h⟩ := h
  · exact .of_findChild? h
  · exact (Read.contains_of_mem_pairedTargets h).2

theorem inside_alone {t : NamedTable} (h : (mirror c).Image (.item (.named t)) m)
    (hm : n.Contains m) : Inside ((mirror c).Mirrors (Whole c)) n (.source t.alone) :=
  .intro (.inr ⟨t, h, rfl⟩) hm

theorem MirrorsTables.inside {clause : Rule} {ts : TableSources} (h : MirrorsTables c clause n ts) :
    ∀ q ∈ ts.pieces, Inside ((mirror c).Mirrors (Whole c)) n q := by
  cases h with
  | alone hchild htarget =>
    simpa [TableSources.pieces] using inside_alone htarget (.of_child? hchild)
  | joined hchild htarget hlisted hadded =>
    obtain ⟨k, hk, hlist⟩ := Option.bind_eq_some_iff.1 hlisted
    have hcontains := (Node.Contains.of_child? hk).trans (.of_child? hlist)
    have hsources := hadded.tables_inside
    simp only [TableSources.pieces, List.forall_mem_cons, List.forall_mem_map, Part.inside_excerpt,
      true_and] at hsources ⊢
    exact ⟨inside_alone htarget (.of_child? hchild),
      fun s hs => (inside_of_image (hsources s hs)).trans hcontains⟩

theorem MirrorsSource.inside {source : InsertSource} (h : MirrorsSource c n source) :
    ∀ q ∈ source.pieces, Inside ((mirror c).Mirrors (Whole c)) n q := by
  cases h with
  | values hchild _ hrows =>
    simp only [InsertSource.pieces, List.forall_mem_cons, List.forall_mem_map, Part.inside_excerpt,
      true_and]
    exact fun x hx => inside_of_image (hrows.inside
      (fun k hk => (Node.Contains.of_child? hchild).trans (.of_childrenOf hk)) x hx)
  | defaultValues => simp [InsertSource.pieces]
  | select _ _ hchild himage =>
    exact List.forall_mem_singleton.2 (.intro (.inl himage) (.of_findChild? hchild))

theorem MirrorsInsert.inside {i : Insert} (h : MirrorsInsert c i n) :
    ∀ q ∈ i.pieces, Inside ((mirror c).Mirrors (Whole c)) n q := by
  simp only [Insert.pieces, List.forall_mem_append, List.forall_mem_cons, List.forall_mem_map,
    Part.forall_mem_optional, h.onDuplicate, Part.inside_excerpt, Part.inside_tableName,
    List.not_mem_nil, false_implies, implies_true, and_true, true_and]
  exact ⟨⟨h.source.inside, fun body hbody => inside_of_image (inside_of_keeps h.onConflict body hbody)⟩,
    fun body hbody => inside_of_image (inside_of_keeps h.returning body hbody)⟩

theorem inside_of_mem_assignedTargets {a : Assignment} {p : Node Rule × Node Rule}
    (hp : p ∈ assignedTargets n) (h : MirrorsAssignment c a p.1 p.2) :
    Inside ((mirror c).Mirrors (Whole c)) n (.assignment a) := by
  obtain ⟨clause, hclause, hp⟩ := List.mem_flatMap.1 hp
  obtain ⟨target, htarget, rfl⟩ := List.mem_map.1 hp
  exact .intro (.inr ⟨target, htarget, h⟩) (.of_childrenThat hclause)

theorem MirrorsUpdate.inside {u : Update} (h : MirrorsUpdate c u n) :
    ∀ q ∈ u.pieces, Inside ((mirror c).Mirrors (Whole c)) n q := by
  have htables : Whole c (.tables u.tables) n := ⟨_, h.tables⟩
  simp only [Update.pieces, Part.tail, List.forall_mem_append, List.forall_mem_cons,
    List.forall_mem_map, Part.forall_mem_optional, h.orderBy, h.limit, Part.inside_excerpt,
    List.not_mem_nil, reduceCtorEq, false_implies, implies_true, and_true, true_and]
  refine ⟨⟨⟨.self (.inr htables), fun a ha => ?_⟩, fun x hx => inside_of_image ?_⟩, fun body hbody =>
    inside_of_image (inside_of_keeps h.returning body hbody)⟩
  · obtain ⟨p, hp, hmirrors⟩ := exists_of_forall₂ h.assignments ha
    exact inside_of_mem_assignedTargets hp hmirrors
  · exact h.condition.inside (fun _ => .of_child?) x hx

theorem MirrorsDelete.inside {d : Delete} (h : MirrorsDelete c d n) :
    ∀ q ∈ d.pieces, Inside ((mirror c).Mirrors (Whole c)) n q := by
  have htables : Whole c (.tables d.tables) n := ⟨_, h.tables⟩
  simp only [Delete.pieces, Part.tail, List.forall_mem_append, List.forall_mem_cons,
    List.forall_mem_map, Part.forall_mem_optional, h.targets, h.orderBy, h.limit,
    Part.inside_excerpt, List.not_mem_nil, reduceCtorEq, false_implies, implies_true, and_true,
    true_and]
  exact ⟨⟨.self (.inr htables), fun x hx => inside_of_image
    (h.condition.inside (fun _ => .of_child?) x hx)⟩, fun body hbody =>
      inside_of_image (inside_of_keeps h.returning body hbody)⟩

theorem MirrorsForm.inside {s : Statement} (h : MirrorsForm c n s) :
    ∀ q ∈ s.pieces, Inside ((mirror c).Mirrors (Whole c)) n q := by
  have hself (h : !structured.contains n.rule) :
      Inside ((mirror c).Mirrors (Whole c)) n (.unstructured (c.unstructured n)) :=
    .self (.inl (.unstructured (keeps_of_rule h)))
  cases h with
  | select _ hchild himage =>
    exact fun q hq => (inside_of_image (himage.select_inside q hq)).trans (.of_firstChild? hchild)
  | insert h | update h | delete h => exact List.forall_mem_singleton.2 (.self (.inr h))
  | createDatabase => exact List.forall_mem_singleton.2 (.of_isWord trivial)
  | definition h =>
    refine List.forall_mem_singleton.2 (hself ?_)
    rw [h]
    decide
  | otherRead h =>
    have hrules : ∀ rule ∈ Rule.all, rule = .variableShowStmt ∨ rule = .explainStmt →
        !structured.contains rule := by decide
    exact List.forall_mem_singleton.2 (hself (hrules _ n.rule.mem_all h))
  | manipulation h =>
    have hrules : ∀ rule ∈ manipulations, !structured.contains rule := by decide
    exact List.forall_mem_singleton.2 (hself (hrules _ h))
  | unclassified h =>
    have hrules : ∀ rule ∈ others, !structured.contains rule := by decide
    exact List.forall_mem_singleton.2 (hself (hrules _ h))

theorem MirrorsSlot.inside {s : Statement} (h : MirrorsSlot c n s) :
    ∀ q ∈ s.pieces, Inside ((mirror c).Mirrors (Whole c)) n q := by
  cases h with
  | empty => simp [Statement.pieces]
  | form _ hchild h => exact fun q hq => (h.inside q hq).trans (.of_firstChild? hchild)

theorem wholes : (mirror c).Wholes (Whole c) where
  inward := Read.roles_inward
  isWhole {p _} h := by
    cases p
    all_goals first
      | contradiction
      | trivial
  inside {p n} h := by
    cases p with
    | statement s => exact MirrorsSlot.inside h
    | insert i => exact MirrorsInsert.inside h
    | update u => exact MirrorsUpdate.inside h
    | delete d => exact MirrorsDelete.inside h
    | assignment a =>
      obtain ⟨target, -, h⟩ := h
      obtain ⟨m, hm, himage⟩ := h.value
      simpa [Part.pieces, Assignment.pieces] using .intro (.inl himage) (contains_of_isValue hm)
    | tables ts =>
      obtain ⟨clause, h⟩ := h
      exact h.inside
    | source s =>
      obtain ⟨t, h, rfl⟩ := h
      simpa [Part.pieces, NamedTable.alone, TableSource.pieces] using .self (.inl h)
    | _ => contradiction

end

theorem MirrorsForm.isOfKind {s : Statement} (h : MirrorsForm c n s) : IsOfKind n s := by
  have hrules : ∀ rule ∈ .createdbStmt :: .ddlStmt :: .variableShowStmt :: .explainStmt ::
      (manipulations ++ others),
      rule ∉ [.selectStmt, .insertStmt, .updateStmt, .deleteStmt] := by decide
  cases h with
  | select h => exact h
  | insert h => exact h.rule
  | update h => exact h.rule
  | delete h => exact h.rule
  | createDatabase h | definition h => exact hrules _ (by simp [h])
  | otherRead h => exact hrules _ (by obtain h | h := h <;> simp [h])
  | manipulation h => exact hrules _ (by simp [h])
  | unclassified h => exact hrules _ (by simp [h])

namespace Read

theorem where_introduces : (shape .whereClause).Introduces .WHERE Rule.isExpressionForm := by
  refine .append_or ?_ ?_
  · exact .append (.of_bars (by decide)) (.of_bars (by decide))
  · exact .behind _ _

theorem where_follows {clause : Node Rule} (hn : n.Formed)
    (hclause : n.child? .whereClause = some clause)
    (hm : clause.findChild? Rule.isExpressionForm = some m) : clause.Follows .WHERE m :=
  (hn.child (Node.mem_childNodes_of_child? hclause)).follows (Node.rule_of_child? hclause)
    where_introduces hm

theorem element_image (hn : n.Formed) (hrule : n.rule = .targetStar ∨ n.rule = .targetEl) :
    ∃ e, selectElement? c n = some e ∧ (mirror c).Image (.element e) n := by
  suffices h : ∃ e, selectElement? c n = some e ∧ e.excerpt = c.excerptOf n ∧
      ∀ body, e.text? = some body → body = c.unstructured n ∧ n.rule = .targetEl by
    obtain ⟨e, hread, hexcerpt, htext⟩ := h
    refine ⟨e, hread, .element hread hexcerpt fun body hbody => ?_⟩
    obtain ⟨rfl, h⟩ := htext body hbody
    exact keeps_of_rule (by rw [h]; decide)
  unfold selectElement?
  obtain h | h := hrule
  · rw [h]
    exact ⟨_, rfl, rfl, nofun⟩
  · obtain ⟨expression, hexpression⟩ := hn.exists_child h Rule.isExpressionForm (by decide)
    have htext : ∀ body, some (c.unstructured n) = some body →
        body = c.unstructured n ∧ n.rule = .targetEl := by
      rintro _ ⟨⟩
      exact ⟨rfl, h⟩
    rw [h] at htext ⊢
    rw [hexpression]
    dsimp only [Option.bind_eq_bind, Option.bind_some]
    split
    · split
      · split
        · exact ⟨_, rfl, rfl, nofun⟩
        · exact ⟨_, rfl, rfl, nofun⟩
      · exact ⟨_, rfl, rfl, htext⟩
      · exact ⟨_, rfl, rfl, htext⟩
    · exact ⟨_, rfl, rfl, htext⟩

theorem atom_image (hrule : n.rule ∈ operands) : (mirror c).Image (.atom (atom c n)) n := by
  refine .atom rfl fun body hbody => ?_
  unfold atom at hbody
  split at hbody
  · contradiction
  · rename_i h
    split at hbody
    · rename_i hstar
      cases hbody
      exact ⟨rfl, .inr ⟨h, hstar⟩⟩
    · contradiction
  · rename_i hconstant hcolumn
    have hrules : ∀ r ∈ operands, r ≠ .aexprConst → r ≠ .columnref →
        !structured.contains r := by decide
    cases hbody
    exact keeps_of_rule (hrules _ hrule hconstant hcolumn)

theorem cases_of_joinQual (hn : n.Formed) (hrule : n.rule = .joinQual) :
    (n.hasKeyword .ON = true ∧
      ∃ m, n.findChild? Rule.isExpressionForm = some m ∧ n.Follows .ON m) ∨
    n.hasKeyword .ON = false ∧ ∃ m, n.child? .nameList = some m :=
  hn.cases_of_joinCondition hrule rfl (by decide) (by decide)
    (.append (.keyword (by decide)) (.append (.parens (.node _ _))
      (.opt (.append (.keyword (by decide)) (.node _ _)))))

theorem mirror_fits : (mirror c).Fits text where
  tail {n} h := by
    have hrules : ∀ r ∈ Rule.all, r = .forLockingClause ∨ r = .groupClause ∨ r = .sortClause →
        !structured.contains r := by decide
    exact kept_of_rule (hrules _ n.rule.mem_all h)
  element {n m} hn hrule hm := by
    have hrules : ∀ rule ∈ (shape .targetList).rules, rule = .targetStar ∨ rule = .targetEl := by
      decide
    exact element_image (hn.formed.child hm) (hrules _ (hn.formed.rule_mem_of_rule hrule hm))
  listed {n m} hn hrule hm := by
    have hrules : ∀ rule ∈ (shape .fromList).rules, rule = .tableRef := by decide
    exact .inl (hrules _ (hn.rule_mem_of_rule hrule hm))
  item {n} h := by
    have hrules : ∀ r ∈ Rule.all, Rule.isTableItemForm r → r = .relationRef ∨ r = .subqueryRef ∨
        r = .joinedTableRef ∨ !structured.contains r := by decide
    obtain h | h | h | h := hrules _ n.rule.mem_all h
    · exact .inl h
    · exact .inr (.inl h)
    · exact .inr (.inr (.inl h))
    · exact .inr (.inr (.inr (kept_of_rule h)))
  joinCondition := cases_of_joinQual
  names {n m} hn hrule hm := by
    have hrules : ∀ rule ∈ (shape .nameList).rules, rule = .colId := by decide
    exact hrules _ (hn.rule_mem_of_rule hrule hm)
  filter hn _ hclause hm := where_follows hn hclause hm
  having hn hrule hm := hn.follows hrule (.behind _ _) hm
  expression {n} _ hrule hnone := by
    have hrules : ∀ r ∈ Rule.all, Rule.isExpressionForm r →
        r = .aExprAnd ∨ r = .aExprOr ∨ r = .aExprPredicate ∨ !structured.contains r := by decide
    change connectiveOf? n = none at hnone
    unfold connectiveOf? at hnone
    obtain h | h | h | h := hrules _ n.rule.mem_all hrule
    · rw [h] at hnone
      contradiction
    · rw [h] at hnone
      contradiction
    · exact .inl h
    · exact .inr (kept_of_rule h)
  predicate {n} h := by
    have hrules : ∀ r ∈ Rule.all, Rule.isPredicateForm r → r = .aExprCompare ∨
        r = .aExprIn ∨ r = .aExprPrimary ∨ !structured.contains r := by decide
    obtain h | h | h | h := hrules _ n.rule.mem_all h
    · exact .inl h
    · exact .inr (.inl h)
    · exact .inr (.inr (.inl h))
    · exact .inr (.inr (.inr (kept_of_rule h)))
  atom {n m} hn hrule hm := by
    have hrules : ∀ rule ∈ (shape .aExprPrimary).rules, rule ∈ operands := by decide
    have hm := List.mem_of_mem_head? hm
    exact atom_image (hrules _ (hn.formed.rule_mem_of_rule hrule hm))

theorem images_values (hc : c.Cuts text good) (depth : Nat) :
    (Reader.ofDepth roles c depth).ImagesValues (mirror c) text depth .setToDefault where
  toImages := Reader.ofDepth_images mirror_fits (roles_tells hc) depth
  default {n} h := by
    have hnone : connectiveOf? n = none := by
      unfold connectiveOf?
      rw [h]
    refine ⟨Reader.expression_ofDepth depth hnone (by rw [h]; decide), ?_⟩
    exact kept_of_rule (by rw [h]; decide)

theorem pairedTargets_map_fst (hn : n.Formed) (hrule : n.rule = .multiSetClause) :
    (pairedTargets n).map (·.1) = n.childrenOf .setTarget := by
  obtain ⟨value, hvalue⟩ := hn.exists_child hrule Rule.isExpressionForm (by decide)
  have hpaired : ∀ row : List (Node Rule), (if row.length = (n.childrenOf .setTarget).length then
      (n.childrenOf .setTarget).zip row else (n.childrenOf .setTarget).map (·, value)).map (·.1) =
        n.childrenOf .setTarget := by
    intro row
    split
    · rename_i hlength
      exact List.map_fst_zip (Nat.le_of_eq hlength.symm)
    · rw [List.map_map]
      exact List.map_id _
  unfold pairedTargets
  rw [hvalue]
  exact hpaired _

theorem unstructured?_keeps {rule : Rule} (h : !structured.contains rule) :
    Option.Rel (mirror c).Keeps (Reading.unstructured? c n rule) (n.child? rule) :=
  Reading.unstructured?_image fun _ hm => kept_of_rule (by rwa [hm])

section

variable (hreader : reader.ImagesValues (mirror c) text depth .setToDefault)

include hreader

theorem singleAssignment?_mirrors (hn : n.Ready c text depth) (hrule : n.rule = .setClause) :
    List.Forall₂ (fun a p => MirrorsAssignment c a p.1 p.2) (singleAssignment? c reader n).toList
      ((n.childrenOf .setTarget).map (n, ·)) := by
  obtain ⟨target, htarget⟩ := hn.formed.exists_child hrule (· == .setTarget) (by decide)
  obtain ⟨column, hcolumn⟩ := exists_targetColumn (c := c)
    (hn.formed.child (Node.mem_childNodes_of_findChild? htarget)) (Node.rule_of_child? htarget)
  obtain ⟨value, hvalue⟩ := hn.formed.exists_child hrule (roles.isAssigned .setToDefault) (by decide)
  have hread : singleAssignment? c reader n =
      some ⟨c.excerptOf n, column, reader.expression value⟩ := by
    refine Option.bind_eq_some_iff.2 ⟨target, htarget, ?_⟩
    refine Option.bind_eq_some_iff.2 ⟨column, hcolumn, ?_⟩
    exact Option.bind_eq_some_iff.2 ⟨value, hvalue, rfl⟩
  have htargets : n.childrenOf .setTarget = [target] := by
    refine (hn.formed.childrenThat_eq (by rw [hrule]; decide)).trans ?_
    rw [htarget]
    rfl
  have himage := Reading.value_image hreader
    (hn.below (Node.mem_childNodes_of_findChild? hvalue)) (Node.rule_of_findChild? hvalue)
  rw [hread, htargets]
  exact .cons ⟨rfl, hcolumn, value, .inl ⟨hrule, hvalue⟩, himage⟩ .nil

theorem multiAssignments_mirror (hn : n.Ready c text depth) (hrule : n.rule = .multiSetClause) :
    List.Forall₂ (fun a p => MirrorsAssignment c a p.1 p.2) (multiAssignments c reader n)
      ((n.childrenOf .setTarget).map (n, ·)) := by
  have htargets : (n.childrenOf .setTarget).map (n, ·) =
      (pairedTargets n).map fun pair => (n, pair.1) := by
    rw [← pairedTargets_map_fst hn.formed hrule, List.map_map]
    rfl
  rw [htargets, List.forall₂_map_right_iff]
  refine forall₂_filterMap fun pair hpair => ?_
  obtain ⟨htarget, whole, hwhole, hvalue⟩ := cases_of_mem_pairedTargets hpair
  obtain ⟨column, hcolumn⟩ := exists_targetColumn (c := c)
    (hn.formed.child (Node.mem_childNodes_of_mem_childrenOf htarget))
    (eq_of_beq (Node.rule_of_mem_childrenThat htarget))
  have hexpression : Rule.isExpressionForm pair.2.rule := by
    obtain h | ⟨row, -, -, hmem⟩ := hvalue
    · rw [h]
      exact Node.rule_of_findChild? hwhole
    · exact Node.rule_of_mem_childrenThat hmem
  have himage := hreader.expression (hn.of_contains (contains_of_mem_pairedTargets hpair).2)
    hexpression
  exact ⟨_, Option.bind_eq_some_iff.2 ⟨column, hcolumn, rfl⟩, rfl, hcolumn, pair.2,
    .inr ⟨hrule, hpair⟩, himage⟩

theorem assignmentsOf_mirror (hn : n.Ready c text depth) :
    List.Forall₂ (fun a p => MirrorsAssignment c a p.1 p.2) (assignmentsOf c reader n)
      (assignedTargets n) := by
  unfold assignmentsOf assignedTargets Node.childrenThat
  rw [Shape.flatMap_filter]
  refine forall₂_flatMap fun m hm => ?_
  have hm := hn.below hm
  split
  · rename_i h
    rw [if_pos (by rw [h]; decide)]
    exact singleAssignment?_mirrors hreader hm h
  · rename_i h
    rw [if_pos (by rw [h]; decide)]
    exact multiAssignments_mirror hreader hm h
  · rename_i hsingle hmulti
    rw [if_neg (by simpa [isSetClause] using ⟨hsingle, hmulti⟩)]
    exact .nil

theorem changedTables?_mirrors (hn : n.Ready c text depth) (clause : Rule)
    (hrequires : (shape n.rule).requires (· == .relationRef)) :
    ∃ t, changedTables? c reader n clause = some t ∧ MirrorsTables c clause n t := by
  obtain ⟨m, hm⟩ := hn.formed.exists_child rfl (· == .relationRef) hrequires
  obtain ⟨name, hname⟩ := (hn.formed.child (Node.mem_childNodes_of_findChild? hm)).exists_child
    (Node.rule_of_child? hm) (· == .qualifiedName) (by decide)
  change n.child? .relationRef = some m at hm
  have htable : namedTable? c m = some ⟨c.excerptOf m, tableName c name, alias? c m⟩ :=
    Option.bind_eq_some_iff.2 ⟨name, hname, rfl⟩
  have himage := Image.itemNamed (M := mirror c) (Node.rule_of_child? hm) htable
  unfold changedTables?
  rw [hm, Option.bind_eq_bind, Option.bind_some, htable]
  dsimp only
  cases hread : n.child? clause >>= (·.child? .fromList) with
  | none => exact ⟨_, rfl, .alone hm himage hread⟩
  | some list =>
    obtain ⟨k, hk, hlist⟩ := Option.bind_eq_some_iff.1 hread
    have hadded := hreader.tables ((hn.below (Node.mem_childNodes_of_child? hk)).below
      (Node.mem_childNodes_of_child? hlist)) (Node.rule_of_child? hlist)
    exact ⟨_, rfl, .joined hm himage hread hadded⟩

theorem rowCondition?_mirrors (hn : n.Ready c text depth) :
    (mirror c).ImageCondition .WHERE (n.child? .whereClause) (rowCondition? reader n) :=
  Reading.condition?_image _ _ hreader.toImages
    (fun _ hk => hn.below (Node.mem_childNodes_of_child? hk))
    (fun _ _ hk => where_follows hn.formed hk)

theorem update?_mirrors (hn : n.Ready c text depth) (hrule : n.rule = .updateStmt) :
    ∃ u, update? c reader n = some u ∧ MirrorsUpdate c u n := by
  obtain ⟨t, ht, htables⟩ := changedTables?_mirrors hreader hn .fromClause (by rw [hrule]; decide)
  unfold update?
  rw [ht]
  exact ⟨_, rfl, hrule, rfl, htables, assignmentsOf_mirror hreader hn,
    rowCondition?_mirrors hreader hn, rfl, rfl, unstructured?_keeps (by decide)⟩

theorem delete?_mirrors (hn : n.Ready c text depth) (hrule : n.rule = .deleteStmt) :
    ∃ d, delete? c reader n = some d ∧ MirrorsDelete c d n := by
  obtain ⟨t, ht, htables⟩ := changedTables?_mirrors hreader hn .usingClause (by rw [hrule]; decide)
  unfold delete?
  rw [ht]
  exact ⟨_, rfl, hrule, rfl, htables, rfl, rowCondition?_mirrors hreader hn, rfl, rfl,
    unstructured?_keeps (by decide)⟩

theorem insertSource?_mirrors (hn : n.Ready c text depth) (hrule : n.rule = .insertStmt) :
    ∃ source, insertSource? c reader n = some source ∧ MirrorsSource c n source := by
  unfold insertSource?
  cases hvalues : n.child? .valuesClause with
  | some values =>
    have hready := hn.below (Node.mem_childNodes_of_child? hvalues)
    have hassigned : (shape .valuesRow).rules.all (roles.isAssigned .setToDefault) := by decide
    have hrows := Reading.rows_image hreader (values.childrenOf .valuesRow) .valuesRow hassigned
      fun row hrow => ⟨hready.below (Node.mem_childNodes_of_mem_childrenOf hrow),
        eq_of_beq (Node.rule_of_mem_childrenThat hrow)⟩
    exact ⟨_, rfl, .values hvalues rfl hrows⟩
  | none =>
    cases hdefaults : n.child? .defaultValues with
    | some defaults => exact ⟨_, rfl, .defaultValues hvalues hdefaults⟩
    | none =>
      obtain ⟨m, hm⟩ := hn.formed.exists_child hrule isInserted (by decide)
      have hchild := Node.mem_childNodes_of_findChild? hm
      have hkind := Node.rule_of_findChild? hm
      simp only [isInserted, Bool.or_eq_true] at hkind
      obtain (h | h) | h := hkind
      · exact absurd h (List.find?_eq_none.1 hvalues m hchild)
      · exact absurd h (List.find?_eq_none.1 hdefaults m hchild)
      · have hsome : (n.findChild? Rule.isSelectForm).isSome := List.find?_isSome.2 ⟨m, hchild, h⟩
        obtain ⟨select, hselect⟩ := Option.isSome_iff_exists.1 hsome
        obtain ⟨s, hs, himage⟩ := hreader.select?
          (hn.below (Node.mem_childNodes_of_findChild? hselect)) (Node.rule_of_findChild? hselect)
        dsimp only
        rw [hselect, Option.bind_eq_bind, Option.bind_some, hs]
        exact ⟨_, rfl, .select hvalues hdefaults hselect himage⟩

omit hreader in
theorem columns_mirror (hn : n.Formed) : List.Forall₂
    (fun name m => ∃ t, m.tokens.head? = some t ∧ name = (Identifier.ofRaw (c.tokenText t)).value)
    (((n.child? .insertColumnList).map (insertedColumnsOf c)).getD [])
    ((n.child? .insertColumnList).toList.flatMap (·.childrenOf .setTarget)) := by
  cases hlist : n.child? .insertColumnList with
  | none => exact .nil
  | some list =>
    rw [Option.map_some, Option.getD_some, Option.toList_some, List.flatMap_singleton]
    refine forall₂_filterMap fun m hm => ?_
    have hformed := (hn.child (Node.mem_childNodes_of_child? hlist)).child
      (Node.mem_childNodes_of_mem_childrenOf hm)
    obtain ⟨t, rest, htokens, -⟩ :=
      exists_tokens_target hformed (eq_of_beq (Node.rule_of_mem_childrenThat hm))
    exact ⟨_, by rw [htokens]; rfl, t, by rw [htokens]; rfl, rfl⟩

theorem insert?_mirrors (hn : n.Ready c text depth) (hrule : n.rule = .insertStmt) :
    ∃ i, insert? c reader n = some i ∧ MirrorsInsert c i n := by
  obtain ⟨source, hsource, hmirrors⟩ := insertSource?_mirrors hreader hn hrule
  obtain ⟨target, htarget⟩ := hn.formed.exists_child hrule (· == .insertTarget) (by decide)
  obtain ⟨table, htable⟩ := (hn.formed.child (Node.mem_childNodes_of_findChild? htarget)).exists_child
    (Node.rule_of_child? htarget) (· == .qualifiedName) (by decide)
  exact ⟨_, Option.bind_eq_some_iff.2 ⟨source, hsource, Option.bind_eq_some_iff.2
    ⟨target, htarget, Option.bind_eq_some_iff.2 ⟨table, htable, rfl⟩⟩⟩, hrule, rfl,
    ⟨target, table, htarget, htable, rfl⟩, columns_mirror hn.formed, hmirrors, rfl,
    unstructured?_keeps (by decide), unstructured?_keeps (by decide)⟩

omit hreader in
theorem unlooked_mirrors (hrule : n.rule ∈ statementKinds) (h : !structured.contains n.rule) :
    MirrorsForm c n (unlooked c n) := by
  have hrules : ∀ rule ∈ statementKinds, !structured.contains rule → rule = .ddlStmt ∨
      (rule = .variableShowStmt ∨ rule = .explainStmt) ∨ rule ∈ manipulations ∨
      rule ∈ others := by decide
  obtain hdefinition | hread | hmanipulation | hother := hrules _ hrule h
  · have hform : unlooked c n = .definition (c.unstructured n) := by
      unfold unlooked
      rw [hdefinition]
    exact hform ▸ .definition hdefinition
  · have hform : unlooked c n = .otherRead (c.unstructured n) := by
      unfold unlooked
      obtain h | h := hread <;> rw [h]
    exact hform ▸ .otherRead hread
  · have hform : unlooked c n = .manipulation (c.unstructured n) := by
      unfold unlooked
      simp only [manipulations, List.mem_cons, List.not_mem_nil, or_false] at hmanipulation
      obtain h | h | h | h := hmanipulation <;> rw [h]
    exact hform ▸ .manipulation hmanipulation
  · have hform : unlooked c n = .unclassified (c.unstructured n) := by
      unfold unlooked
      simp only [others, List.mem_cons, List.not_mem_nil, or_false] at hother
      obtain h | h | h | h | h := hother <;> rw [h]
    exact hform ▸ .unclassified hother

theorem structured?_mirrors (hn : n.Ready c text depth) (hrule : n.rule ∈ statementKinds) :
    MirrorsForm c n ((structured? c reader n).getD (unlooked c n)) := by
  unfold structured?
  split
  · rename_i h
    obtain ⟨m, hm⟩ := hn.formed.exists_child h Rule.isSelectForm (by decide)
    have hfirst := (hn.formed.firstChild?_eq h Rule.isSelectForm (by decide)).trans hm
    obtain ⟨s, hs, himage⟩ := hreader.select?
      (hn.below (Node.mem_childNodes_of_findChild? hm)) (Node.rule_of_findChild? hm)
    rw [hfirst, Option.bind_eq_bind, Option.bind_some, hs]
    exact .select h hfirst himage
  · rename_i h
    obtain ⟨i, hi, hmirrors⟩ := insert?_mirrors hreader hn h
    rw [hi]
    exact .insert hmirrors
  · rename_i h
    obtain ⟨u, hu, hmirrors⟩ := update?_mirrors hreader hn h
    rw [hu]
    exact .update hmirrors
  · rename_i h
    obtain ⟨d, hd, hmirrors⟩ := delete?_mirrors hreader hn h
    rw [hd]
    exact .delete hmirrors
  · rename_i h
    obtain ⟨name, hname⟩ := hn.formed.exists_child h (· == .colId) (by decide)
    have hread : createDatabase? c n = some ⟨c.excerptOf n, c.identifier name, n.hasKeyword .IF⟩ :=
      Option.bind_eq_some_iff.2 ⟨name, hname, rfl⟩
    rw [hread]
    exact .createDatabase h hname
  · rename_i hselect hinsert hupdate hdelete hcreate
    have hrules : ∀ rule ∈ statementKinds, rule ≠ .selectStmt → rule ≠ .insertStmt →
        rule ≠ .updateStmt → rule ≠ .deleteStmt → rule ≠ .createdbStmt →
        !structured.contains rule := by decide
    exact unlooked_mirrors hrule (hrules _ hrule hselect hinsert hupdate hdelete hcreate)

omit hreader in
theorem keeps_of_announced {s : Statement} (hkind : IsOfKind n s) (h : isAnnounced n) :
    s.Keeps n := by
  intro t ht
  rw [isAnnounced, ht, Option.bind_some] at h
  split
  case h_6 =>
    -- Any other token says nothing of the kind of its statement.
    trivial
  all_goals
    rename_i htoken
    rw [manipulated?, htoken] at h
    have hrule := eq_of_beq h
    cases s
    all_goals first
      | exact ⟨_, rfl⟩
      | grind [IsOfKind]

theorem statementOf_agrees (hn : n.Ready c text depth)
    (hrule : n.rule = .emptyStmt ∨ n.rule = .stmt) :
    (mirror c).Agrees (Whole c) n (statementOf c reader n) := by
  have hmatches := hn.formed.matches_children
  unfold statementOf
  obtain h | h := hrule
  · rw [h] at hmatches ⊢
    obtain ⟨t, hchildren, ht⟩ := hmatches
    exact .of_whole wholes (.empty h)
      (Statement.keeps_semicolon hchildren (TokenKind.eq_semicolon_of_alike ht))
  · rw [h] at hmatches
    obtain ⟨m, hchildren, hm, hannounced⟩ := hmatches
    have hfirst : n.firstChild? = some m := by
      unfold Node.firstChild?
      rw [Node.childNodes_eq, hchildren]
      rfl
    have hleaves : n.leaves = m.leaves := by
      rw [Node.leaves_eq, hchildren, Tree.leaves_node, ← Node.leaves_eq]
    have hmirrors := structured?_mirrors hreader (hn.below (List.mem_of_mem_head? hfirst)) hm
    rw [h, hfirst]
    refine .of_whole wholes (.form h hfirst hmirrors) ?_
    have hkeeps := keeps_of_announced hmirrors.isOfKind hannounced
    unfold Statement.Keeps at hkeeps ⊢
    rwa [hleaves]

end

end Read

section

variable {root : Node Rule}

theorem ready_of_mem_slots (hroot : root.Genuine c text) (hn : n ∈ slots root) :
    n.Ready c text root.height ∧ (n.rule = .emptyStmt ∨ n.rule = .stmt) := by
  have hkinds : ∀ rule ∈ (shape .stmtmulti).rules, rule = .emptyStmt ∨ rule = .stmt := by decide
  exact (hroot.ready_of_mem_slots hn).imp_right (hkinds _)

theorem forall₂_statementsOf {R : Node Rule → Statement → Prop}
    (h : ∀ n ∈ slots root, R n (Read.statementOf c (.ofTree Read.roles c root) n)) :
    List.Forall₂ R (slots root) (statementsOf c root) := by
  rw [statementsOf_eq_slots]
  exact List.forall₂_map_right_iff.2 (List.forall₂_same.2 h)

theorem statementsOf_agree (hc : c.Cuts text good) (hroot : root.Genuine c text) :
    List.Forall₂ ((mirror c).Agrees (Whole c)) (slots root) (statementsOf c root) := by
  refine forall₂_statementsOf fun n hn => ?_
  obtain ⟨hready, hrule⟩ := ready_of_mem_slots hroot hn
  exact Read.statementOf_agrees (Read.images_values hc root.height) hready hrule

end

end SqlScript.Postgres
