import SqlScript.MySql.Reading
import SqlScript.Proofs.Lineage.Shaped
import SqlScript.Proofs.MySql.Shape

/-!
What the statements of a MySQL script tell of tables.
-/

namespace SqlScript.MySql

open SqlScript.Tree (Node Element)

/--
The productions that are read for what is nested in them, if tables can be named there.
-/
def opened : List Rule := [
  .root, .sqlStatements, .sqlStatement, .dmlStatement,
  .simpleSelect, .parenthesisSelect, .unionSelect, .unionStatement, .queryExpression,
  .querySpecification, .selectElements, .fromClause, .havingClause,
  .tableSources, .tableSourceBase, .atomTableItem, .subqueryTableItem, .tableSourcesItem,
  .innerJoin, .straightJoin, .outerJoin, .naturalJoin, .joinSpec,
  .insertStatement, .insertStatementValue, .expressionsWithDefaults, .duplicateKeyUpdate,
  .updatedElement, .singleUpdateStatement, .multipleUpdateStatement, .singleDeleteStatement,
  .multipleDeleteStatement,
  .expressions, .logicalExpression, .predicateExpression, .inPredicate,
  .binaryComparisonPredicate, .expressionAtomPredicate]

/--
The productions that are kept as text although tables can be named there.
-/
def closed : List Rule := [
  .selectExpressionElement, .groupByClause, .groupByItem, .orderByClause, .orderByExpression,
  .notExpression, .isExpression, .isNullPredicate, .subqueryComparisonPredicate,
  .betweenPredicate, .soundsLikePredicate, .likePredicate, .regexpPredicate,
  .jsonMemberOfPredicate, .collateExpressionAtom, .unaryExpressionAtom, .binaryExpressionAtom,
  .variableAssignExpressionAtom, .nestedExpressionAtom, .nestedRowExpressionAtom,
  .existsExpressionAtom, .subqueryExpressionAtom, .intervalExpressionAtom, .bitExpressionAtom,
  .mathExpressionAtom, .jsonExpressionAtom]

def look (rule : Rule) : Look :=
  if rule = .tableName then .name
  else if rule = .limitClause then .limit
  else if opened.contains rule then .inside
  else if closed.contains rule then .text
  else .bare

/--
The nested productions that are read. Of the conditions of a join it is the first one.
-/
def shown (n : Node Rule) : List (Node Rule) :=
  if n.rule = .innerJoin then
    n.childNodes.take (n.childNodes.findIdx (·.rule == .joinSpec) + 1)
  else
    n.childNodes

theorem shown_sublist (n : Node Rule) : (shown n).Sublist n.childNodes := by
  unfold shown
  split
  · exact List.take_sublist _ _
  · exact .refl _

def isUnparsed (n : Node Rule) : Bool :=
  n.rule == .dmlStatement && n.childNodes.isEmpty

/--
The kinds of production of which not all that is nested in them is read whatever it is.
-/
def uneven : List Rule := [.innerJoin, .dmlStatement]

theorem isUnparsed_eq_false (n : Node Rule) (h : n.rule ≠ .dmlStatement) : isUnparsed n = false := by
  simp [isUnparsed, h]

theorem isUnparsed_of_mem {n m : Node Rule} (h : m ∈ n.childNodes) : isUnparsed n = false := by
  cases hnodes : n.childNodes with
  | nil =>
    rw [hnodes] at h
    contradiction
  | cons k rest => simp [isUnparsed, hnodes]

def lineage : Lineage Rule where
  kinds := opened ++ closed
  look n := if isUnparsed n then .text else look n.rule
  shown := shown
  nested {_ m} h := ⟨m, (shown_sublist _).subset h, .refl m⟩
  whole rule := look rule == .inside && !uneven.contains rule
  bare rule := look rule == .bare
  look_whole {n} h := by
    rw [Bool.and_eq_true, beq_iff_eq] at h
    rw [isUnparsed_eq_false n (by rintro heq; rw [heq] at h; exact absurd h.2 (by decide))]
    exact h.1
  shown_whole {n} h := by
    rw [Bool.and_eq_true] at h
    exact if_neg (by rintro heq; rw [heq] at h; exact absurd h.2 (by decide))
  look_bare {n} h := by
    rw [isUnparsed_eq_false n (by rintro heq; rw [heq] at h; exact absurd h (by decide))]
    exact eq_of_beq h

theorem Rule.mem_all (rule : Rule) : rule ∈ Rule.all := by
  cases rule <;> decide

theorem Rule.name_injective : Function.Injective Rule.name :=
  injective_of_bytesNumber Rule.mem_all (by decide +kernel)

theorem lineage_hears (rule : Rule) :
    lineage.hears (Production.name rule) = lineage.kinds.contains rule :=
  Lineage.hears_name Rule.name_injective rule

variable {c : Context} {text : List Char} {good : Excerpt → Prop} {n m : Node Rule}

theorem look_eq (h : n.rule ≠ .dmlStatement) : lineage.look n = look n.rule :=
  if_neg (by simp [isUnparsed_eq_false n h])

theorem plain_of_look (h : look n.rule = .text ∨ look n.rule = .bare) : lineage.Plain n := by
  have hkinds : ∀ r ∈ Rule.all, (look r = .text → lineage.kinds.contains r) ∧
      (look r = .bare → lineage.kinds.contains r = false) := by decide
  obtain ⟨htext, hbare⟩ := hkinds n.rule n.rule.mem_all
  have hparsed : n.rule ≠ .dmlStatement := by
    rintro heq
    rw [heq] at h
    exact absurd h (by decide)
  unfold Lineage.Plain
  rw [lineage_hears]
  obtain h | h := h
  · rw [htext h, Lineage.marks_text ((look_eq hparsed).trans h)]
    rfl
  · rw [hbare h, Lineage.marks_bare ((look_eq hparsed).trans h)]
    rfl

theorem plain_of_bare (n : Node Rule) (h : lineage.bare n.rule) : lineage.Plain n :=
  plain_of_look (.inr (eq_of_beq h))

namespace Read

theorem shaped : roles.Shaped lineage where
  simpleSelect := by decide
  parenthesisSelect := by decide
  unionSelect := by decide
  having := by decide
  tableList := by decide
  tableSource := by decide
  subqueryTable := by decide
  nestedTables := by decide
  joinCondition := by decide
  predicateExpression := by decide
  among := by decide
  inList := by decide

theorem unionPart_marks (hn : n.Formed) (hrule : n.rule = .unionStatement) :
    n.tokens ≠ [] ∧ ∃ m, n.firstChild? = some m ∧ m ∈ n.childNodes ∧ roles.isOperand m.rule ∧
      lineage.marks n = lineage.marks m := by
  obtain ⟨m, hm⟩ := hn.exists_child hrule roles.isOperand (by decide)
  have hfirst := hn.firstChild?_eq hrule roles.isOperand (by decide)
  refine ⟨?_, m, hfirst.trans hm, Node.mem_childNodes_of_findChild? hm,
    Node.rule_of_findChild? hm, ?_⟩
  · have h := hn.matches_children
    rw [hrule] at h
    obtain ⟨_, ys, hchildren, ⟨t, rfl, -⟩, -⟩ := h
    have ht : t ∈ n.tokens := by
      unfold Node.tokens
      rw [hchildren]
      exact List.mem_cons_self
    exact List.ne_nil_of_mem ht
  · rw [Lineage.marks_singles hn hrule [roles.isOperand] (by decide)]
    simp [hm]

def isGroupBody (rule : Rule) : Bool :=
  rule == .querySpecification || rule == .unionSelect || rule == .queryExpression

theorem group_marks (hn : n.Formed) (hrule : n.rule = .queryExpression) :
    ∃ m, n.firstChild? = some m ∧ (m.rule = .querySpecification ∨ m.rule = .unionSelect ∨
      m.rule = .queryExpression) ∧ lineage.marks n = lineage.marks m := by
  obtain ⟨m, hm⟩ := hn.exists_child hrule isGroupBody (by decide)
  refine ⟨m, (hn.firstChild?_eq hrule isGroupBody (by decide)).trans hm, ?_, ?_⟩
  · simpa [isGroupBody, or_assoc] using Node.rule_of_findChild? hm
  · rw [Lineage.marks_singles hn hrule [isGroupBody] (by decide)]
    simp [hm]

theorem fromClause_marks (hn : n.Formed) (hrule : n.rule = .fromClause) :
    lineage.marks n = lineage.told (n.child? .tableSources) ++
      lineage.told (n.findChild? Rule.isExpressionForm) := by
  rw [Lineage.marks_singles hn hrule [(· == .tableSources), Rule.isExpressionForm] (by decide)]
  simp [Node.child?]

theorem specification_marks (hn : n.Formed) (hrule : n.rule = .querySpecification) :
    ∃ elements, n.child? .selectElements = some elements ∧
      lineage.marks n = lineage.marks elements ++ lineage.told (roles.tables? n) ++
        lineage.told (n.child? .fromClause >>= (·.findChild? Rule.isExpressionForm)) ++
        lineage.told (n.child? .groupByClause) ++
        lineage.told (n.child? .havingClause >>= (·.findChild? Rule.isExpressionForm)) ++
        (lineage.told (n.child? .orderByClause) ++ lineage.told (n.child? .limitClause)) := by
  obtain ⟨elements, helements⟩ := hn.exists_child hrule (· == .selectElements) (by decide)
  have hfrom : lineage.told (n.child? .fromClause) = lineage.told (roles.tables? n) ++
      lineage.told (n.child? .fromClause >>= (·.findChild? Rule.isExpressionForm)) := by
    change _ = lineage.told (n.child? .fromClause >>= (·.child? .tableSources)) ++ _
    cases hm : n.child? .fromClause with
    | none => rfl
    | some m =>
      exact (lineage.told_some m).trans (fromClause_marks
        (hn.child (Node.mem_childNodes_of_child? hm)) (Node.rule_of_child? hm))
  have hhaving : lineage.told (n.child? .havingClause) =
      lineage.told (n.child? .havingClause >>= (·.findChild? Rule.isExpressionForm)) :=
    shaped.having_marks hn
  refine ⟨elements, helements, ?_⟩
  rw [Lineage.marks_singles hn hrule [(· == .selectElements), (· == .fromClause), (· == .groupByClause),
    (· == .havingClause), (· == .orderByClause), (· == .limitClause)] (by decide)]
  rw [← hhaving]
  simp only [Node.child?] at hfrom ⊢
  simp [helements, hfrom]

theorem element_marks (hc : c.Cuts text good) (hn : n.Genuine c text) (hrule : n.rule ∈ elements) :
    ((selectElement? c n).toList.flatMap fun e => lineage.partMarks (.element e)) =
      lineage.marks n := by
  have hplain : look n.rule = .text ∨ look n.rule = .bare →
      lineage.partMarks (.unstructured (c.unstructured n)) = lineage.marks n :=
    fun h => Reading.plain_tells hc hn.laid (plain_of_look h)
  simp only [elements, List.mem_cons, List.not_mem_nil, or_false] at hrule
  unfold selectElement?
  obtain h | h | h | h := hrule
  · rw [lineage.marks_eq_nil n (by rw [h]; decide), h]
    simp
  · rw [lineage.marks_eq_nil n (by rw [h]; decide), h]
    cases n.child? .fullColumnName <;> simp
  · rw [← hplain (.inr (by rw [h]; decide)), h]
    simp
  · rw [← hplain (.inl (by rw [h]; decide)), h]
    simp

theorem elements_marks (hc : c.Cuts text good) (hn : n.Genuine c text)
    (hrule : n.rule = .selectElements) :
    ((n.childNodes.filterMap (selectElement? c)).flatMap fun e => lineage.partMarks (.element e)) =
      lineage.marks n := by
  have hrules : (shape .selectElements).rules.all (elements.contains ·) := by decide
  rw [Lineage.marks_children (by rw [hrule]; decide), List.filterMap_eq_flatMap_toList,
    List.flatMap_assoc]
  apply List.flatMap_congr
  intro m hm
  apply element_marks hc (hn.child hm)
  simpa using List.all_eq_true.1 hrules _ (hn.formed.rule_mem_of_rule hrule hm)

theorem tableName?_marks (hc : c.Cuts text good) (hn : n.Genuine c text)
    (hrule : n.rule = .tableName) :
    ∃ name, tableName? c n = some name ∧ lineage.marks n = [.table name.excerpt.span] := by
  have h := hn.formed.matches_children
  rw [hrule] at h
  obtain ⟨m, hchildren, hm⟩ := Shape.matches_one.1 h
  have hchild : n.child? .fullId = some m := by
    unfold Node.child? Node.findChild? Node.childNodes
    rw [hchildren]
    simp [Element.node?, hm]
  have hspan : n.span = m.span := (hn.laid.nodes rfl (.refl n)).span_of_singleton hchildren
  have hlaid := hn.laid.of_contains (.of_child? hchild)
  unfold tableName?
  rw [hchild]
  refine ⟨_, rfl, ?_⟩
  have hlook : lineage.look n = .name :=
    (look_eq (by rw [hrule]; decide)).trans ((congrArg look hrule).trans (by decide))
  rw [Lineage.marks_name hlook, hspan]
  exact congrArg (fun s => [Mark.table s]) (hc.span hlaid.span).symm

theorem namedTable_marks (hc : c.Cuts text good) (hn : n.Genuine c text)
    (hrule : n.rule = .atomTableItem) :
    ∃ t, namedTable? c n = some t ∧ lineage.marks n = [.table t.name.excerpt.span] := by
  obtain ⟨m, hm⟩ := hn.formed.exists_child hrule (· == .tableName) (by decide)
  obtain ⟨name, hname, hmarks⟩ := tableName?_marks hc
    (hn.child (Node.mem_childNodes_of_findChild? hm)) (Node.rule_of_child? hm)
  have hread : n.child? .tableName >>= tableName? c = some name :=
    Option.bind_eq_some_iff.2 ⟨m, hm, hname⟩
  unfold namedTable?
  rw [hread]
  refine ⟨_, rfl, ?_⟩
  rw [Lineage.marks_singles hn.formed hrule [(· == .tableName)] (by decide)]
  simp [hm, hmarks]

theorem exists_innerJoin (hn : n.Formed) (hrule : n.rule = .innerJoin) :
    ∃ m conditions, n.childNodes = m :: conditions ∧ m.rule ∈ items ∧
      ∀ k ∈ conditions, k.rule = .joinSpec := by
  have h := hn.matches_children
  rw [hrule] at h
  obtain ⟨xs, _, hchildren, hxs, _, _, rfl, ⟨t, rfl, -⟩, _, zs, rfl, ⟨m, rfl, hm, -⟩, hzs⟩ := h
  refine ⟨m, Tree.nodesOf zs, ?_, hm, ?_⟩
  · rw [Node.childNodes_eq, hchildren]
    obtain rfl | ⟨t', rfl, -⟩ := hxs <;> rfl
  · intro k hk
    exact List.mem_singleton.1 (hzs.rule_mem hk)

theorem innerJoin_marks (hn : n.Formed) (hrule : n.rule = .innerJoin) :
    ∃ m, n.findChild? roles.isJoinedItem = some m ∧
      lineage.marks n = lineage.marks m ++ lineage.told (n.child? .joinSpec) := by
  obtain ⟨m, conditions, hnodes, hm, hconditions⟩ := exists_innerJoin hn hrule
  have hitem : roles.isJoinedItem m.rule ∧ m.rule ≠ .joinSpec := by
    have hitems : ∀ rule ∈ items, roles.isJoinedItem rule ∧ rule ≠ .joinSpec := by decide
    exact hitems _ hm
  refine ⟨m, ?_, ?_⟩
  · unfold Node.findChild?
    rw [hnodes, List.find?_cons_of_pos (by exact hitem.1)]
  · have hne : (m.rule == .joinSpec) = false := by simpa using hitem.2
    have hlook : lineage.look n = .inside :=
      (look_eq (by rw [hrule]; decide)).trans ((congrArg look hrule).trans (by decide))
    rw [Lineage.marks_inside hlook]
    change (shown n).flatMap lineage.marks = _
    unfold shown Node.child? Node.findChild?
    rw [if_pos hrule, hnodes]
    cases conditions with
    | nil => simp [hne]
    | cons k rest => simp [hne, List.findIdx_cons, hconditions k List.mem_cons_self]

theorem join_marks (hn : n.Formed) (hrule : Rule.isJoinForm n.rule) :
    ∃ m kind, n.findChild? roles.isJoinedItem = some m ∧ joinKind? n = some kind ∧
      (∀ side, kind = .natural side → n.child? .joinSpec = none) ∧
      lineage.marks n = lineage.marks m ++ lineage.told (n.child? .joinSpec) := by
  have hforms : ∀ r ∈ Rule.all, Rule.isJoinForm r → r = .innerJoin ∨
      r ∈ [Rule.straightJoin, .outerJoin, .naturalJoin] := by decide
  -- All but the inner join have at most one condition.
  have hone : n.rule ∈ [Rule.straightJoin, .outerJoin, .naturalJoin] →
      ∃ m, n.findChild? roles.isJoinedItem = some m ∧
        lineage.marks n = lineage.marks m ++ lineage.told (n.child? .joinSpec) := by
    intro hmem
    have hrules : ∀ r ∈ [Rule.straightJoin, .outerJoin, .naturalJoin],
        (shape r).requires roles.isJoinedItem ∧
          lineage.singly r [roles.isJoinedItem, (· == .joinSpec)] := by decide
    obtain ⟨hrequires, hsingly⟩ := hrules _ hmem
    obtain ⟨m, hm⟩ := hn.exists_child rfl roles.isJoinedItem hrequires
    refine ⟨m, hm, ?_⟩
    rw [Lineage.marks_singles hn rfl _ hsingly]
    simp [hm, Node.child?]
  unfold joinKind?
  obtain h | h := hforms _ n.rule.mem_all hrule
  · obtain ⟨m, hm, hmarks⟩ := innerJoin_marks hn h
    exact ⟨m, .inner, hm, by rw [h], by simp, hmarks⟩
  · obtain ⟨m, hm, hmarks⟩ := hone h
    simp only [List.mem_cons, List.not_mem_nil, or_false] at h
    obtain h | h | h := h
    · exact ⟨m, .straight, hm, by rw [h], by simp, hmarks⟩
    · exact ⟨m, .outer (if n.hasKeyword .LEFT then .left else .right), hm, by rw [h], by simp, hmarks⟩
    · refine ⟨m, _, hm, by rw [h], ?_, hmarks⟩
      intro side _
      have hbars : (shape .naturalJoin).rules.all (· != .joinSpec) := by decide
      apply List.find?_eq_none.2
      intro k hk
      simpa using List.all_eq_true.1 hbars _ (hn.rule_mem_of_rule h hk)

-- Expressions

theorem connective_marks (hn : n.Formed) {operator : LogicalOperator}
    (h : connectiveOf? c n = some operator) :
    lineage.marks n = (n.childrenThat Rule.isExpressionForm).flatMap lineage.marks := by
  have hrule : n.rule = .logicalExpression := by
    unfold connectiveOf? at h
    split at h
    · assumption
    · contradiction
  rw [Lineage.marks_slots hn hrule [Rule.isExpressionForm] (by decide)]
  simp

theorem ofText?_of_denoted {kind : TokenKind} {text : String} {connective : LogicalOperator}
    (hspelled : kind.spelledBy text) (h : denoted? kind = some connective) :
    LogicalOperator.ofText? text = some connective := by
  have hword : ∀ word : Keyword, kind = .keyword word → text.toUpper = word.spelling := by
    rintro word rfl
    have hfind := List.find?_some (eq_of_beq (Bool.and_eq_true _ _ ▸ hspelled).1)
    exact (eq_of_beq hfind).symm
  have hletters : text.toUpper = connective.spelling →
      LogicalOperator.ofText? text = some connective := by
    intro htext
    have hsame : ∀ operator : LogicalOperator,
        Text.sameLetters text operator.spelling = decide (operator = connective) := by
      intro operator
      rw [Text.sameLetters, htext]
      cases connective <;> cases operator <;> decide +kernel
    have hsign : ∀ operator : LogicalOperator, (operator.sign? == some text) = false := by
      have hsigns : ∀ operator ∈ LogicalOperator.all, ∀ sign, operator.sign? = some sign →
          sign.toUpper ≠ connective.spelling := by
        cases connective <;> decide +kernel
      intro operator
      apply beq_false_of_ne
      intro heq
      exact hsigns operator (by cases operator <;> decide) text heq htext
    unfold LogicalOperator.ofText?
    simp only [hsame, hsign, Bool.or_false]
    cases connective <;> rfl
  unfold denoted? at h
  split at h
  · cases h
    exact hletters (hword _ rfl)
  · cases h
    rw [eq_of_beq hspelled]
    decide +kernel
  · cases h
    exact hletters (hword _ rfl)
  · cases h
    exact hletters (hword _ rfl)
  · cases h
    rw [eq_of_beq hspelled]
    decide +kernel
  · contradiction

theorem children_of_connective {sign : Node Rule} {t : Token} (hn : sign.Formed)
    (hrule : sign.rule = .logicalOperator) (ht : sign.tokens.head? = some t) :
    sign.children = [.token t] := by
  have h := hn.matches_children
  rw [hrule] at h
  unfold Node.tokens at ht
  obtain h | ⟨t', h, -⟩ := h
  · rw [h] at ht
    contradiction
  · rw [h] at ht
    cases ht
    exact h

theorem connectiveOf?_of_chain (hn : n.Genuine c text) (hrule : n.rule = .logicalExpression)
    {operator : InfixOperator Rule} (h : (connectives.chain operator).Matches n.children) :
    ∃ connective, connectiveOf? c n = some connective ∧
      operator = ⟨.logicalExpression, connectiveStrength connective⟩ := by
  obtain ⟨sign, t, hsign, ht, hop⟩ := connective_of_chain h
  rw [connective?_eq] at hop
  obtain ⟨connective, hdenoted, rfl⟩ := Option.map_eq_some_iff.1 hop
  have hmem := Node.mem_childNodes_of_child? hsign
  have hchildren := children_of_connective (hn.formed.child hmem) (Node.rule_of_child? hsign) ht
  have htext : c.text sign = t.text c.source := by
    have hspan := ((hn.laid.child hmem).nodes rfl (.refl sign)).span_of_singleton hchildren
    unfold Context.text Node.text Token.text
    rw [hspan]
    rfl
  have hleaf : t ∈ n.leaves := by
    apply Tree.mem_leaves_of_mem_childNodes hmem
    rw [Node.leaves_eq]
    exact Tree.mem_leaves_of_mem_tokens (List.mem_of_mem_head? ht)
  refine ⟨connective, ?_, rfl⟩
  rw [← ofText?_of_denoted (hn.spelled t hleaf).written hdenoted, ← htext]
  unfold connectiveOf?
  rw [hrule, hsign]
  rfl

theorem exists_connective (hn : n.Genuine c text) (hrule : n.rule = .logicalExpression) :
    ∃ connective, connectiveOf? c n = some connective ∧
      (connectives.chain ⟨.logicalExpression, connectiveStrength connective⟩).Matches n.children := by
  have hchain : ∀ operator, (connectives.chain operator).Matches n.children →
      ∃ connective, connectiveOf? c n = some connective ∧
        (connectives.chain ⟨.logicalExpression, connectiveStrength connective⟩).Matches
          n.children := by
    intro operator h
    obtain ⟨connective, hconnective, rfl⟩ := connectiveOf?_of_chain hn hrule h
    exact ⟨connective, hconnective, h⟩
  have h := hn.formed.matches_children
  rw [hrule] at h
  obtain (h | h) | h := h
  · exact hchain _ h
  · exact hchain _ h
  · exact hchain _ h

theorem expression_marks (hn : n.Genuine c text) (hrule : Rule.isExpressionForm n.rule)
    (hnone : connectiveOf? c n = none) : n.rule = .predicateExpression ∨ lineage.Plain n := by
  have hrules : ∀ r ∈ Rule.all, Rule.isExpressionForm r →
      r = .logicalExpression ∨ r = .predicateExpression ∨ look r = .text := by decide
  obtain h | h | h := hrules _ n.rule.mem_all hrule
  · obtain ⟨operator, hsome, -⟩ := exists_connective hn h
    rw [hsome] at hnone
    contradiction
  · exact .inl h
  · exact .inr (plain_of_look (.inl h))

theorem atomPredicate_marks (hc : c.Cuts text good) (hn : n.Genuine c text)
    (hrule : n.rule = .expressionAtomPredicate) :
    ∃ m, n.findChild? Rule.isAtomForm = some m ∧
      lineage.partMarks (.atom (atom c m)) = lineage.marks n := by
  obtain ⟨m, hm⟩ := hn.formed.exists_child hrule Rule.isAtomForm (by decide)
  refine ⟨m, hm, ?_⟩
  have hplain : lineage.Plain m := by
    have hrules : ∀ r ∈ Rule.all, Rule.isAtomForm r → look r = .text ∨ look r = .bare := by decide
    exact plain_of_look (hrules _ m.rule.mem_all (Node.rule_of_findChild? hm))
  have htext := Reading.plain_tells hc (hn.laid.of_contains (.of_findChild? hm)) hplain
  rw [Lineage.marks_singles hn.formed hrule [Rule.isAtomForm] (by decide)]
  simp only [List.flatMap_cons, List.flatMap_nil, List.append_nil, hm, lineage.told_some]
  unfold atom
  split
  · rename_i h
    cases m.child? .constant with
    | none => exact (lineage.partMarks_atom _).trans htext
    | some k => simp [lineage.marks_eq_nil m (by rw [h]; decide)]
  · rename_i h
    cases m.child? .fullColumnName with
    | none => exact (lineage.partMarks_atom _).trans htext
    | some k => simp [lineage.marks_eq_nil m (by rw [h]; decide)]
  · exact (lineage.partMarks_atom _).trans htext

theorem predicate_look (hrule : Rule.isPredicateForm n.rule) :
    n.rule = .binaryComparisonPredicate ∨ n.rule = .inPredicate ∨
      n.rule = .expressionAtomPredicate ∨ lineage.Plain n := by
  have hrules : ∀ r ∈ Rule.all, Rule.isPredicateForm r → r = .binaryComparisonPredicate ∨
      r = .inPredicate ∨ r = .expressionAtomPredicate ∨ look r = .text := by decide
  obtain h | h | h | h := hrules _ n.rule.mem_all hrule
  · exact .inl h
  · exact .inr (.inl h)
  · exact .inr (.inr (.inl h))
  · exact .inr (.inr (.inr (plain_of_look (.inl h))))

theorem roles_tells (hc : c.Cuts text good) : roles.Tells lineage c text where
  isSelect {rule} h := by
    have hrules : ∀ r ∈ Rule.all, Rule.isSelectForm r →
        r = .simpleSelect ∨ r = .unionSelect ∨ r = .parenthesisSelect := by decide
    exact hrules _ rule.mem_all h
  isOperand {rule} h := by
    have hrules : ∀ r ∈ Rule.all, roles.isOperand r →
        r = .querySpecification ∨ r = .queryExpression ∨ r = .unionSelect := by decide
    exact hrules _ rule.mem_all h
  plain h := by
    apply plain_of_look
    obtain h | h | h := h
    · exact .inr (by rw [h]; decide)
    · exact .inl (by rw [h]; decide)
    · exact .inl (by rw [h]; decide)
  limit {n} h := by
    have hlook : lineage.look n = .limit :=
      (look_eq (by rw [h]; decide)).trans ((congrArg look h).trans (by decide))
    refine ⟨?_, Lineage.marks_limit hlook⟩
    change (limit c n).excerpt = _
    unfold limit
    dsimp only
    split
    · rfl
    · split <;> rfl
  simpleSelect hn := shaped.simpleSelect_marks hn.formed
  parenthesisSelect hn := shaped.parenthesisSelect_marks hn.formed
  unionSelect hn := shaped.unionSelect_marks hn.formed
  unionPart hn := unionPart_marks hn.formed
  group hn := group_marks hn.formed
  specification hn hrule := by
    obtain ⟨elements, helements, hmarks⟩ := specification_marks hn.formed hrule
    refine ⟨elements, helements, ?_, fun _ => Node.mem_childNodes_of_child?, hmarks⟩
    intro m hm
    obtain ⟨k, hk, hmk⟩ := Option.bind_eq_some_iff.1 hm
    exact ⟨Node.rule_of_child? hmk, k, Node.mem_childNodes_of_child? hk,
      Node.mem_childNodes_of_child? hmk⟩
  elements hn := elements_marks hc hn
  tableList hn := shaped.tableList_marks plain_of_bare hn.formed
  tableSource hn := shaped.tableSource_marks hn.formed
  item {n} h := by
    have hrules : ∀ r ∈ Rule.all, roles.isJoinedItem r →
        r = .atomTableItem ∨ r = .subqueryTableItem ∨ r = .tableSourcesItem := by decide
    obtain h | h | h := hrules _ n.rule.mem_all h
    · exact .inl h
    · exact .inr (.inl h)
    · exact .inr (.inr (.inl h))
  namedTable hn := namedTable_marks hc hn
  subqueryTable hn := shaped.subqueryTable_marks hn.formed
  nestedTables hn := shaped.nestedTables_marks hn.formed
  join hn := join_marks hn.formed
  joinCondition hn := shaped.joinCondition_marks rfl (by decide) hn.formed
  connective hn := connective_marks hn.formed
  predicateExpression hn := shaped.predicateExpression_marks hn.formed
  expression hn := expression_marks hn
  comparison hn := Roles.Shaped.comparison_marks rfl (by decide) (by decide) (by decide) hn.formed
  among hn := shaped.among_marks hn.formed
  atomPredicate hn := atomPredicate_marks hc hn
  predicate h := predicate_look h

end Read

end SqlScript.MySql
