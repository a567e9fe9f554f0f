import SqlScript.Postgres.Reading
import SqlScript.Proofs.Lineage.Shaped
import SqlScript.Proofs.Postgres.Reading
import SqlScript.Proofs.Postgres.Shape

/-!
What the statements of a PostgreSQL script tell of tables.
-/

namespace SqlScript.Postgres

open SqlScript.Tree (Node Element)

def opened : List Rule := [
  .root, .stmtmulti, .stmt, .selectStmt, .insertStmt, .updateStmt, .deleteStmt,
  .plainSelect, .setOperationSelect, .parenthesizedSelect, .selectWithParens,
  .simpleSelectPrimary, .setOperationPart, .targetList, .fromClause, .usingClause, .whereClause,
  .havingClause, .fromList, .tableRef, .relationRef, .subqueryRef, .joinedTableRef, .innerJoin,
  .outerJoin, .naturalJoin, .joinQual,
  .insertTarget, .valuesClause, .valuesRow, .setClause, .multiSetClause,
  .aExprOr, .aExprAnd, .aExprPredicate, .aExprCompare, .aExprIn, .inList, .aExprPrimary]

def closed : List Rule := [
  .targetEl, .sortClause, .sortBy, .limitClause, .offsetClause, .fetchClause, .aExprNot,
  .aExprSubqueryCompare, .aExprIsNull, .aExprIs, .aExprBetween, .aExprLike, .cExprExists,
  .cExprSubquery, .cExprNested, .cExprRow, .cExprIndirection, .aExprTypecast, .aExprCollate,
  .aExprAtTimeZone, .aExprUnary, .aExprMath, .aExprQualOp]

def look (rule : Rule) : Look :=
  if rule = .qualifiedName then .name
  else if rule = .selectLimit then .limit
  else if opened.contains rule then .inside
  else if closed.contains rule then .text
  else .bare

def isColumn (n : Node Rule) : Bool :=
  n.rule == .targetEl &&
    (n.findChild? Rule.isExpressionForm >>= Read.bareOperand?).any (·.rule == .columnref)

def isSetClause (rule : Rule) : Bool :=
  rule == .setClause || rule == .multiSetClause

/--
The nested productions that are read. What sorts or limits a query in parentheses is not, if there
are parentheses around it once more; a value that is assigned to several columns is read for each of
them.
-/
def shown (n : Node Rule) : List (Node Rule) :=
  match n.rule with
  | .selectWithParens => n.childNodes.take 1
  | .updateStmt =>
    n.childrenOf .relationRef ++ n.childrenOf .fromClause ++ n.childrenThat isSetClause ++
      n.childrenOf .whereClause
  | .multiSetClause => (Read.pairedTargets n).map (·.2)
  | _ => n.childNodes

theorem nested_of_mem_shown {n m : Node Rule} (h : m ∈ shown n) :
    ∃ k ∈ n.childNodes, k.Contains m := by
  have hchild : ∀ p : Rule → Bool, m ∈ n.childrenThat p → ∃ k ∈ n.childNodes, k.Contains m :=
    fun p hm => ⟨m, Node.mem_childNodes_of_mem_childrenThat hm, .refl m⟩
  unfold shown at h
  split at h
  · exact ⟨m, List.mem_of_mem_take h, .refl m⟩
  · simp only [List.mem_append] at h
    obtain ((h | h) | h) | h := h <;> exact hchild _ h
  · obtain ⟨⟨target, value⟩, hpair, rfl⟩ := List.mem_map.1 h
    obtain ⟨-, whole, hwhole, rfl | ⟨row, hrow, -, hvalue⟩⟩ :=
      Read.cases_of_mem_pairedTargets hpair
    · exact ⟨_, Node.mem_childNodes_of_findChild? hwhole, .refl _⟩
    · exact ⟨whole, Node.mem_childNodes_of_findChild? hwhole,
        (Read.contains_of_bareOperand? hrow).trans (.of_childrenThat hvalue)⟩
  · exact ⟨m, h, .refl m⟩

/--
The kinds of production of which not all that is nested in them is read as it stands there.
-/
def rearranged : List Rule := [.selectWithParens, .updateStmt, .multiSetClause]

theorem shown_eq (n : Node Rule) (h : n.rule ∉ rearranged) : shown n = n.childNodes := by
  unfold shown
  split <;> simp_all [rearranged]

theorem isColumn_eq_false (n : Node Rule) (h : n.rule ≠ .targetEl) : isColumn n = false := by
  simp [isColumn, h]

def lineage : Lineage Rule where
  kinds := opened ++ closed
  look n := if isColumn n then .bare else look n.rule
  shown := shown
  nested := nested_of_mem_shown
  whole rule := look rule == .inside && !rearranged.contains rule
  bare rule := look rule == .bare
  look_whole {n} h := by
    rw [Bool.and_eq_true, beq_iff_eq] at h
    rw [isColumn_eq_false n (by rintro heq; rw [heq] at h; exact absurd h.1 (by decide))]
    exact h.1
  shown_whole {n} h := by
    rw [Bool.and_eq_true] at h
    exact shown_eq n (by simpa using h.2)
  look_bare {n} h := by
    split
    · rfl
    · exact eq_of_beq h

theorem Rule.mem_all (rule : Rule) : rule ∈ Rule.all := by
  cases rule <;> decide

theorem Rule.name_injective : Function.Injective Rule.name :=
  injective_of_bytesNumber Rule.mem_all (by decide +kernel)

theorem lineage_hears (rule : Rule) :
    lineage.hears (Production.name rule) = lineage.kinds.contains rule :=
  Lineage.hears_name Rule.name_injective rule

variable {c : Context} {text : List Char} {good : Excerpt → Prop} {n m : Node Rule}

theorem look_eq (h : n.rule ≠ .targetEl) : lineage.look n = look n.rule :=
  if_neg (by simp [isColumn_eq_false n h])

theorem plain_of_text (h : look n.rule = .text) (hcolumn : isColumn n = false) :
    lineage.Plain n := by
  have hkinds : ∀ r ∈ Rule.all, look r = .text → lineage.kinds.contains r := by decide
  have hlook : lineage.look n = .text := (if_neg (by simp [hcolumn])).trans h
  unfold Lineage.Plain
  rw [lineage_hears, hkinds _ n.rule.mem_all h, Lineage.marks_text hlook]
  rfl

theorem plain_of_bare (n : Node Rule) (h : lineage.bare n.rule) : lineage.Plain n := by
  have hkinds : ∀ r ∈ Rule.all, look r = .bare → lineage.kinds.contains r = false := by decide
  unfold Lineage.Plain
  rw [lineage_hears, hkinds _ n.rule.mem_all (eq_of_beq h), lineage.marks_eq_nil n h]
  rfl

theorem plain_of_look (h : n.rule ≠ .targetEl ∧ look n.rule = .text ∨ look n.rule = .bare) :
    lineage.Plain n := by
  obtain ⟨hne, h⟩ | h := h
  · exact plain_of_text h (isColumn_eq_false n hne)
  · exact plain_of_bare n (by rw [← beq_iff_eq] at h; exact h)

namespace Read

theorem shaped : roles.Shaped lineage where
  simpleSelect := by decide
  parenthesisSelect := by decide
  unionSelect := by decide
  having := by decide
  tableList := by decide
  tableSource := by decide
  subqueryTable := by decide
  nestedTables := by decide
  joinCondition := by decide
  predicateExpression := by decide
  among := by decide
  inList := by decide

theorem unionPart_marks (hn : n.Formed) (hrule : n.rule = .setOperationPart) :
    n.tokens ≠ [] ∧ ∃ m, n.findChild? isSetOperand = some m ∧ m ∈ n.childNodes ∧
      isSetOperand m.rule ∧ lineage.marks n = lineage.marks m := by
  obtain ⟨m, hm, hmarks⟩ := Lineage.marks_only (L := lineage) hn hrule isSetOperand (by decide)
  refine ⟨?_, m, hm, Node.mem_childNodes_of_findChild? hm, Node.rule_of_findChild? hm, hmarks⟩
  have h := hn.matches_children
  rw [hrule] at h
  obtain ⟨_, ys, hchildren, ⟨t, rfl, -⟩, -⟩ := h
  have ht : t ∈ n.tokens := by
    unfold Node.tokens
    rw [hchildren]
    exact List.mem_cons_self
  exact List.ne_nil_of_mem ht

theorem group_marks (hn : n.Formed) (hrule : n.rule = .selectWithParens) :
    ∃ m, n.firstChild? = some m ∧ (m.rule = .simpleSelectPrimary ∨ m.rule = .setOperationSelect ∨
      m.rule = .selectWithParens) ∧ lineage.marks n = lineage.marks m := by
  obtain ⟨m, hm⟩ := hn.exists_child hrule isSetOperand (by decide)
  have hfirst := (hn.firstChild?_eq hrule isSetOperand (by decide)).trans hm
  refine ⟨m, hfirst, ?_, ?_⟩
  · have h := Node.rule_of_findChild? hm
    simp only [isSetOperand, Bool.or_eq_true, beq_iff_eq] at h
    obtain (h | h) | h := h
    · exact .inl h
    · exact .inr (.inr h)
    · exact .inr (.inl h)
  · have hlook : lineage.look n = .inside :=
      (look_eq (by rw [hrule]; decide)).trans ((congrArg look hrule).trans (by decide))
    have hshown : lineage.shown n = [m] := by
      change shown n = [m]
      unfold shown
      unfold Node.firstChild? at hfirst
      rw [hrule]
      cases hnodes : n.childNodes with
      | nil =>
        rw [hnodes] at hfirst
        contradiction
      | cons k rest =>
        rw [hnodes] at hfirst
        cases hfirst
        rfl
    rw [Lineage.marks_inside hlook, hshown]
    simp

theorem specification_marks (hn : n.Formed) (hrule : n.rule = .simpleSelectPrimary) :
    ∃ elements, n.child? .targetList = some elements ∧
      lineage.marks n = lineage.marks elements ++ lineage.told (roles.tables? n) ++
        lineage.told (n.child? .whereClause >>= (·.findChild? Rule.isExpressionForm)) ++
        lineage.told (n.child? .groupClause) ++
        lineage.told (n.child? .havingClause >>= (·.findChild? Rule.isExpressionForm)) ++
        (lineage.told (n.child? .sortClause) ++ lineage.told (n.child? .selectLimit)) := by
  obtain ⟨elements, helements⟩ := hn.exists_child hrule (· == .targetList) (by decide)
  have hfrom : lineage.told (n.child? .fromClause) = lineage.told (roles.tables? n) := by
    apply lineage.told_eq_bind
    intro m hm
    rw [Lineage.marks_singles (hn.child (Node.mem_childNodes_of_child? hm)) (Node.rule_of_child? hm)
      [(· == .fromList)] (by decide)]
    simp [Node.child?]
  have hwhere : lineage.told (n.child? .whereClause) =
      lineage.told (n.child? .whereClause >>= (·.findChild? Rule.isExpressionForm)) := by
    apply lineage.told_eq_bind
    intro m hm
    rw [Lineage.marks_singles (hn.child (Node.mem_childNodes_of_child? hm)) (Node.rule_of_child? hm)
      [Rule.isExpressionForm] (by decide)]
    simp
  have hhaving : lineage.told (n.child? .havingClause) =
      lineage.told (n.child? .havingClause >>= (·.findChild? Rule.isExpressionForm)) :=
    shaped.having_marks hn
  refine ⟨elements, helements, ?_⟩
  rw [Lineage.marks_singles hn hrule [(· == .targetList), (· == .fromClause), (· == .whereClause),
    (· == .groupClause), (· == .havingClause), (· == .sortClause), (· == .selectLimit)]
    (by decide)]
  rw [← hhaving, ← hwhere, ← hfrom]
  simp [helements, Node.child?]

theorem element_marks (hc : c.Cuts text good) (hn : n.Genuine c text) (hrule : n.rule = .targetEl) :
    ((selectElement? c n).toList.flatMap fun e => lineage.partMarks (.element e)) =
      lineage.marks n := by
  obtain ⟨expression, hexpression⟩ :=
    hn.formed.exists_child hrule Rule.isExpressionForm (by decide)
  have hcolumn : isColumn n = (bareOperand? expression).any (·.rule == .columnref) := by
    simp [isColumn, hrule, hexpression]
  have htext : isColumn n = false →
      lineage.partMarks (.unstructured (c.unstructured n)) = lineage.marks n := fun h =>
    Reading.plain_tells hc hn.laid (plain_of_text (by rw [hrule]; decide) h)
  unfold selectElement?
  rw [hrule, hexpression]
  dsimp only [Option.bind_eq_bind, Option.bind_some]
  cases hoperand : bareOperand? expression with
  | none =>
    rw [← htext (by rw [hcolumn, hoperand]; rfl)]
    simp
  | some operand =>
    rw [hoperand] at hcolumn
    by_cases hbare : operand.rule = .columnref
    · have hlook : lineage.look n = .bare := if_pos (by simp [hcolumn, hbare])
      rw [Lineage.marks_bare hlook]
      dsimp only
      rw [hbare]
      dsimp only
      split <;> simp
    · rw [← htext (by simp [hcolumn, hbare])]
      dsimp only
      split
      · contradiction
      · simp
      · simp

theorem elements_marks (hc : c.Cuts text good) (hn : n.Genuine c text)
    (hrule : n.rule = .targetList) :
    ((n.childNodes.filterMap (selectElement? c)).flatMap fun e => lineage.partMarks (.element e)) =
      lineage.marks n := by
  have hrules : ∀ rule ∈ (shape .targetList).rules, rule = .targetStar ∨ rule = .targetEl := by
    decide
  rw [Lineage.marks_children (by rw [hrule]; decide), List.filterMap_eq_flatMap_toList,
    List.flatMap_assoc]
  apply List.flatMap_congr
  intro m hm
  obtain h | h := hrules _ (hn.formed.rule_mem_of_rule hrule hm)
  · rw [lineage.marks_eq_nil m (by rw [h]; decide)]
    unfold selectElement?
    rw [h]
    simp
  · exact element_marks hc (hn.child hm) h

theorem tableName_marks (hc : c.Cuts text good) (hn : n.Genuine c text)
    (hrule : n.rule = .qualifiedName) :
    lineage.marks n = [.table (tableName c n).excerpt.span] := by
  have hlook : lineage.look n = .name :=
    (look_eq (by rw [hrule]; decide)).trans ((congrArg look hrule).trans (by decide))
  rw [Lineage.marks_name hlook]
  exact congrArg (fun s => [Mark.table s]) (hc.span hn.laid.span).symm

theorem namedTable_marks (hc : c.Cuts text good) (hn : n.Genuine c text)
    (hrule : n.rule = .relationRef) :
    ∃ t, namedTable? c n = some t ∧ lineage.marks n = [.table t.name.excerpt.span] := by
  obtain ⟨m, hm, hmarks⟩ :=
    Lineage.marks_only (L := lineage) hn.formed hrule (· == .qualifiedName) (by decide)
  refine ⟨_, Option.bind_eq_some_iff.2 ⟨m, hm, rfl⟩, ?_⟩
  rw [hmarks]
  exact tableName_marks hc (hn.child (Node.mem_childNodes_of_findChild? hm)) (Node.rule_of_child? hm)

theorem exists_joinSide (hn : n.Formed) (hrule : n.rule = .outerJoin) :
    ∃ side, joinSide? n = some side := by
  have h := hn.matches_children
  rw [hrule] at h
  obtain ⟨_, ys, hchildren, ⟨t, rfl, ht⟩, -⟩ := h
  have htoken : t ∈ n.tokens := by
    unfold Node.tokens
    rw [hchildren]
    exact List.mem_cons_self
  have hword : n.hasKeyword .LEFT ∨ n.hasKeyword .RIGHT ∨ n.hasKeyword .FULL := by
    have hany : ∀ word, t.keyword? = some word → n.hasKeyword word := fun word h =>
      List.any_eq_true.2 ⟨t, htoken, beq_iff_eq.2 h⟩
    change t.isOneOf _ at ht
    unfold Token.isOneOf at ht
    split at ht
    · rename_i word hkeyword
      have hmem := List.contains_iff_mem.1 ht
      simp only [List.mem_cons, List.not_mem_nil, or_false] at hmem
      obtain rfl | rfl | rfl := hmem
      · exact .inl (hany _ hkeyword)
      · exact .inr (.inl (hany _ hkeyword))
      · exact .inr (.inr (hany _ hkeyword))
    · contradiction
  unfold joinSide?
  split
  · exact ⟨_, rfl⟩
  split
  · exact ⟨_, rfl⟩
  split
  · exact ⟨_, rfl⟩
  · simp_all

theorem join_marks (hn : n.Formed) (hrule : Rule.isJoinForm n.rule) :
    ∃ m kind, n.findChild? Rule.isTableItemForm = some m ∧ joinKind? n = some kind ∧
      (∀ side, kind = .natural side → n.child? .joinQual = none) ∧
      lineage.marks n = lineage.marks m ++ lineage.told (n.child? .joinQual) := by
  have hforms : ∀ r ∈ Rule.all, Rule.isJoinForm r → r ∈ joinForms := by decide
  have hrules : ∀ r ∈ joinForms, (shape r).requires Rule.isTableItemForm ∧
      lineage.singly r [Rule.isTableItemForm, (· == .joinQual)] := by decide
  have hmem := hforms _ n.rule.mem_all hrule
  obtain ⟨hrequires, hsingly⟩ := hrules _ hmem
  obtain ⟨m, hm⟩ := hn.exists_child rfl Rule.isTableItemForm hrequires
  have hmarks : lineage.marks n = lineage.marks m ++ lineage.told (n.child? .joinQual) := by
    rw [Lineage.marks_singles hn rfl _ hsingly]
    simp [hm, Node.child?]
  unfold joinKind?
  simp only [joinForms, List.mem_cons, List.not_mem_nil, or_false] at hmem
  obtain h | h | h := hmem
  · exact ⟨m, .inner, hm, by rw [h], by simp, hmarks⟩
  · obtain ⟨side, hside⟩ := exists_joinSide hn h
    exact ⟨m, .outer side, hm, by rw [h, hside]; rfl, by simp, hmarks⟩
  · refine ⟨m, _, hm, by rw [h], ?_, hmarks⟩
    intro side _
    have hbars : (shape .naturalJoin).rules.all (· != .joinQual) := by decide
    apply List.find?_eq_none.2
    intro k hk
    simpa using List.all_eq_true.1 hbars _ (hn.rule_mem_of_rule h hk)

def isInserted (rule : Rule) : Bool :=
  rule == .valuesClause || rule == .defaultValues || rule.isSelectForm

theorem exists_tokens_target (hn : n.Formed) (hrule : n.rule = .setTarget) :
    ∃ t rest, n.tokens = t :: rest ∧ t.isNamePart := by
  have h := hn.matches_children
  rw [hrule] at h
  obtain ⟨_, ys, hchildren, ⟨t, rfl, ht⟩, -⟩ := h
  unfold Node.tokens
  rw [hchildren]
  exact ⟨t, _, rfl, ht⟩

theorem exists_targetColumn (hn : n.Formed) (hrule : n.rule = .setTarget) :
    ∃ column, targetColumn? c n = some column := by
  obtain ⟨t, rest, htokens, ht⟩ := exists_tokens_target hn hrule
  have hname : t.kind ≠ .leftBracket ∧ t.kind ≠ .dot := by
    unfold Token.isNamePart at ht
    constructor
    all_goals
      intro heq
      rw [heq] at ht
      contradiction
  have hparts : ∃ rest', (n.tokens.takeWhile (·.kind != .leftBracket)).filter (·.kind != .dot) =
      t :: rest' := by
    rw [htokens, List.takeWhile_cons_of_pos (by simpa using hname.1),
      List.filter_cons_of_pos (by simpa using hname.2)]
    exact ⟨_, rfl⟩
  obtain ⟨rest', hparts⟩ := hparts
  unfold targetColumn? nameOfTokens?
  dsimp only
  rw [hparts, List.getLast?_cons]
  exact ⟨_, rfl⟩

-- Expressions

theorem connective_marks (hn : n.Formed) {operator : LogicalOperator}
    (h : connectiveOf? n = some operator) :
    lineage.marks n = (n.childrenThat Rule.isExpressionForm).flatMap lineage.marks := by
  have hrule : n.rule = .aExprAnd ∨ n.rule = .aExprOr := by
    unfold connectiveOf? at h
    split at h
    · exact .inl ‹_›
    · exact .inr ‹_›
    · contradiction
  obtain h | h := hrule
  · rw [Lineage.marks_slots hn h [Rule.isExpressionForm] (by decide), List.flatMap_singleton]
  · rw [Lineage.marks_slots hn h [Rule.isExpressionForm] (by decide), List.flatMap_singleton]

theorem expression_marks (hrule : Rule.isExpressionForm n.rule) (hnone : connectiveOf? n = none) :
    n.rule = .aExprPredicate ∨ lineage.Plain n := by
  have hrules : ∀ r ∈ Rule.all, Rule.isExpressionForm r →
      r = .aExprAnd ∨ r = .aExprOr ∨ r = .aExprPredicate ∨ r = .aExprNot := by decide
  unfold connectiveOf? at hnone
  obtain h | h | h | h := hrules _ n.rule.mem_all hrule
  · rw [h] at hnone
    contradiction
  · rw [h] at hnone
    contradiction
  · exact .inl h
  · exact .inr (plain_of_look (.inl (by rw [h]; decide)))

theorem atomPredicate_marks (hc : c.Cuts text good) (hn : n.Genuine c text)
    (hrule : n.rule = .aExprPrimary) :
    ∃ m, n.firstChild? = some m ∧
      lineage.partMarks (.atom (atom c m)) = lineage.marks n := by
  obtain ⟨m, hm, hmarks⟩ :=
    Lineage.marks_only (L := lineage) hn.formed hrule Rule.isAtomForm (by decide)
  refine ⟨m, (hn.formed.firstChild?_eq hrule Rule.isAtomForm (by decide)).trans hm, ?_⟩
  have hplain : lineage.Plain m := by
    have hforms : ∀ r ∈ Rule.all, Rule.isAtomForm r → r ∈ operands := by decide
    have hrules : ∀ r ∈ operands, r ≠ .targetEl ∧ look r = .text ∨ look r = .bare := by decide
    exact plain_of_look (hrules _ (hforms _ m.rule.mem_all (Node.rule_of_findChild? hm)))
  have htext := Reading.plain_tells hc (hn.laid.of_contains (.of_findChild? hm)) hplain
  rw [hmarks]
  unfold atom
  split
  · rename_i h
    rw [lineage.marks_eq_nil m (by rw [h]; decide)]
    simp
  · rename_i h
    split
    · exact (lineage.partMarks_atom _).trans htext
    · rw [lineage.marks_eq_nil m (by rw [h]; decide)]
      simp
  · exact (lineage.partMarks_atom _).trans htext

theorem predicate_look (hrule : Rule.isPredicateForm n.rule) :
    n.rule = .aExprCompare ∨ n.rule = .aExprIn ∨ n.rule = .aExprPrimary ∨ lineage.Plain n := by
  have hforms : ∀ r ∈ Rule.all, Rule.isPredicateForm r → r ∈ predicates := by decide
  have hrules : ∀ r ∈ predicates, r = .aExprCompare ∨ r = .aExprIn ∨ r = .aExprPrimary ∨
      r ≠ .targetEl ∧ look r = .text := by decide
  obtain h | h | h | h := hrules _ (hforms _ n.rule.mem_all hrule)
  · exact .inl h
  · exact .inr (.inl h)
  · exact .inr (.inr (.inl h))
  · exact .inr (.inr (.inr (plain_of_look (.inl h))))

theorem roles_tells (hc : c.Cuts text good) : roles.Tells lineage c text where
  isSelect {rule} h := by
    have hrules : ∀ r ∈ Rule.all, Rule.isSelectForm r →
        r = .plainSelect ∨ r = .setOperationSelect ∨ r = .parenthesizedSelect := by decide
    exact hrules _ rule.mem_all h
  isOperand {rule} h := by
    have hrules : ∀ r ∈ Rule.all, isSetOperand r →
        r = .simpleSelectPrimary ∨ r = .selectWithParens ∨ r = .setOperationSelect := by decide
    exact hrules _ rule.mem_all h
  plain {n} h := by
    apply plain_of_look
    obtain h | h | h := h
    · exact .inr (by rw [h]; decide)
    · exact .inr (by rw [h]; decide)
    · exact .inl (by rw [h]; decide)
  limit {n} h := by
    have hlook : lineage.look n = .limit :=
      (look_eq (by rw [h]; decide)).trans ((congrArg look h).trans (by decide))
    exact ⟨rfl, Lineage.marks_limit hlook⟩
  simpleSelect hn := shaped.simpleSelect_marks hn.formed
  parenthesisSelect hn := shaped.parenthesisSelect_marks hn.formed
  unionSelect hn := shaped.unionSelect_marks hn.formed
  unionPart hn := unionPart_marks hn.formed
  group hn := group_marks hn.formed
  specification hn hrule := by
    obtain ⟨elements, helements, hmarks⟩ := specification_marks hn.formed hrule
    refine ⟨elements, helements, ?_, fun _ => Node.mem_childNodes_of_child?, hmarks⟩
    intro m hm
    obtain ⟨k, hk, hmk⟩ := Option.bind_eq_some_iff.1 hm
    exact ⟨Node.rule_of_child? hmk, k, Node.mem_childNodes_of_child? hk,
      Node.mem_childNodes_of_child? hmk⟩
  elements hn := elements_marks hc hn
  tableList hn := shaped.tableList_marks plain_of_bare hn.formed
  tableSource hn := shaped.tableSource_marks hn.formed
  item {n} h := by
    have hrules : ∀ r ∈ Rule.all, Rule.isTableItemForm r → r = .relationRef ∨ r = .subqueryRef ∨
        r = .joinedTableRef ∨ look r = .bare := by decide
    obtain h | h | h | h := hrules _ n.rule.mem_all h
    · exact .inl h
    · exact .inr (.inl h)
    · exact .inr (.inr (.inl h))
    · exact .inr (.inr (.inr (plain_of_look (.inr h))))
  namedTable hn := namedTable_marks hc hn
  subqueryTable hn := shaped.subqueryTable_marks hn.formed
  nestedTables hn := shaped.nestedTables_marks hn.formed
  join hn := join_marks hn.formed
  joinCondition hn := shaped.joinCondition_marks rfl (by decide) hn.formed
  connective hn := connective_marks hn.formed
  predicateExpression hn := shaped.predicateExpression_marks hn.formed
  expression _ := expression_marks
  comparison hn := Roles.Shaped.comparison_marks rfl (by decide) (by decide) (by decide) hn.formed
  among hn := shaped.among_marks hn.formed
  atomPredicate hn := atomPredicate_marks hc hn
  predicate := predicate_look

end Read

end SqlScript.Postgres
