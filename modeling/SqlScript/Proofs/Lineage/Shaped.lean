import SqlScript.Proofs.Lineage.Reading

/-!
What the productions of a role tell, where it follows from their shapes alone.
-/

namespace SqlScript

open SqlScript.Tree (Node)

variable {ρ : Type} [DecidableEq ρ] [Production ρ] [Grammar ρ]

def Roles.isInSource (r : Roles ρ) (rule : ρ) : Bool :=
  r.isSelect rule || rule == r.inList

/--
The shapes that the productions of a role have in a grammar, as far as they tell which of the nested
productions are looked for.
-/
structure Roles.Shaped (r : Roles ρ) (L : Lineage ρ) : Prop where
  simpleSelect : (Grammar.shape r.simpleSelect).requires (· == r.specification) ∧
    L.singly r.simpleSelect [(· == r.specification), (· == r.lock)]
  parenthesisSelect : (Grammar.shape r.parenthesisSelect).requires (· == r.group) ∧
    L.singly r.parenthesisSelect [(· == r.group), (· == r.orderBy), (· == r.limitClause)]
  unionSelect : (Grammar.shape r.unionSelect).requires r.isOperand ∧ L.whole r.unionSelect ∧
    (Grammar.shape r.unionSelect).fits L.bare
      [r.isOperand, (· == r.unionPart), (· == r.orderBy), (· == r.limitClause)] ∧
    (Grammar.shape r.unionSelect).single r.isOperand ∧
    (Grammar.shape r.unionSelect).single (· == r.orderBy) ∧
    (Grammar.shape r.unionSelect).single (· == r.limitClause)
  having : L.singly r.having [r.isExpression]
  tableList : L.whole r.tableList ∧
    (Grammar.shape r.tableList).rules.all fun rule => rule == r.tableSource || L.bare rule
  tableSource : (Grammar.shape r.tableSource).requires r.isJoinedItem ∧
    (Grammar.shape r.tableSource).leading r.isJoinedItem ∧ L.whole r.tableSource ∧
    (Grammar.shape r.tableSource).fits L.bare [r.isJoinedItem, r.isJoin] ∧
    (Grammar.shape r.tableSource).single r.isJoinedItem
  subqueryTable : (Grammar.shape r.subqueryTable).requires r.isSelect ∧
    L.singly r.subqueryTable [r.isSelect]
  nestedTables : (Grammar.shape r.nestedTables).requires (· == r.tableList) ∧
    L.singly r.nestedTables [(· == r.tableList)]
  joinCondition : L.singly r.joinCondition [r.isExpression]
  predicateExpression : (Grammar.shape r.predicateExpression).requires r.isPredicate ∧
    (Grammar.shape r.predicateExpression).leading r.isPredicate ∧
    L.singly r.predicateExpression [r.isPredicate]
  among : (Grammar.shape r.among).requires r.isPredicate ∧
    (Grammar.shape r.among).requires r.isInSource ∧ (Grammar.shape r.among).single r.isInSource ∧
    L.singly r.among [r.isPredicate, r.isInSource]
  inList : L.whole r.inList ∧ (Grammar.shape r.inList).rules.all r.isExpression

namespace Roles.Shaped

variable {r : Roles ρ} {L : Lineage ρ} {n : Node ρ} (hr : r.Shaped L)

include hr

theorem simpleSelect_marks (hn : n.Formed) (hrule : n.rule = r.simpleSelect) :
    ∃ q, n.child? r.specification = some q ∧
      L.marks n = L.marks q ++ L.told (n.child? r.lock) := by
  obtain ⟨hrequires, hsingly⟩ := hr.simpleSelect
  obtain ⟨q, hq⟩ := hn.exists_child hrule _ hrequires
  refine ⟨q, hq, ?_⟩
  rw [Lineage.marks_singles hn hrule _ hsingly]
  simp [hq, Node.child?]

theorem parenthesisSelect_marks (hn : n.Formed) (hrule : n.rule = r.parenthesisSelect) :
    ∃ g, n.child? r.group = some g ∧
      L.marks n = L.marks g ++ (L.told (n.child? r.orderBy) ++ L.told (n.child? r.limitClause)) := by
  obtain ⟨hrequires, hsingly⟩ := hr.parenthesisSelect
  obtain ⟨g, hg⟩ := hn.exists_child hrule _ hrequires
  refine ⟨g, hg, ?_⟩
  rw [Lineage.marks_singles hn hrule _ hsingly]
  simp [hg, Node.child?]

theorem unionSelect_marks (hn : n.Formed) (hrule : n.rule = r.unionSelect) :
    ∃ first, n.findChild? r.isOperand = some first ∧
      L.marks n = L.marks first ++ (n.childrenOf r.unionPart).flatMap L.marks ++
        (L.told (n.child? r.orderBy) ++ L.told (n.child? r.limitClause)) := by
  obtain ⟨hrequires, hwhole, hfits, hoperand, horder, hlimit⟩ := hr.unionSelect
  obtain ⟨first, hfirst⟩ := hn.exists_child hrule _ hrequires
  refine ⟨first, hfirst, ?_⟩
  rw [Lineage.marks_slots hn hrule _ ⟨hwhole, hfits⟩]
  simp only [List.flatMap_cons, List.flatMap_nil, List.append_nil]
  rw [Lineage.told_of_single hn hrule _ hoperand, Lineage.told_of_single hn hrule _ horder,
    Lineage.told_of_single hn hrule _ hlimit, hfirst, L.told_some, ← List.append_assoc]
  rfl

theorem having_marks (hn : n.Formed) :
    L.told (n.child? r.having) = L.told (n.child? r.having >>= (·.findChild? r.isExpression)) := by
  apply L.told_eq_bind
  intro m hm
  rw [Lineage.marks_singles (hn.child (Node.mem_childNodes_of_child? hm)) (Node.rule_of_child? hm) _
    hr.having]
  simp

theorem tableList_marks (hplain : ∀ m : Node ρ, L.bare m.rule → L.Plain m) (hn : n.Formed)
    (hrule : n.rule = r.tableList) :
    (∀ m ∈ n.childNodes, m.rule = r.tableSource ∨ L.Plain m) ∧
      L.marks n = n.childNodes.flatMap L.marks := by
  obtain ⟨hwhole, hrules⟩ := hr.tableList
  refine ⟨?_, Lineage.marks_children (by rwa [hrule])⟩
  intro m hm
  have hkind := List.all_eq_true.1 hrules _ (hn.rule_mem_of_rule hrule hm)
  rw [Bool.or_eq_true] at hkind
  exact hkind.imp eq_of_beq (hplain m)

theorem tableSource_marks (hn : n.Formed) (hrule : n.rule = r.tableSource) :
    ∃ m, n.firstChild? = some m ∧ r.isJoinedItem m.rule ∧
      L.marks n = L.marks m ++ (n.childrenThat r.isJoin).flatMap L.marks := by
  obtain ⟨hrequires, hleading, hwhole, hfits, hsingle⟩ := hr.tableSource
  obtain ⟨m, hm⟩ := hn.exists_child hrule _ hrequires
  refine ⟨m, (hn.firstChild?_eq hrule _ ⟨hrequires, hleading⟩).trans hm,
    Node.rule_of_findChild? hm, ?_⟩
  rw [Lineage.marks_slots hn hrule _ ⟨hwhole, hfits⟩]
  simp only [List.flatMap_cons, List.flatMap_nil, List.append_nil]
  rw [Lineage.told_of_single hn hrule _ hsingle, hm, L.told_some]

theorem subqueryTable_marks (hn : n.Formed) (hrule : n.rule = r.subqueryTable) :
    ∃ m, n.findChild? r.isSelect = some m ∧ L.marks n = L.marks m :=
  Lineage.marks_only hn hrule _ hr.subqueryTable

theorem nestedTables_marks (hn : n.Formed) (hrule : n.rule = r.nestedTables) :
    ∃ m, n.child? r.tableList = some m ∧ L.marks n = L.marks m :=
  Lineage.marks_only hn hrule _ hr.nestedTables

theorem joinCondition_marks {f g : Shape ρ}
    (hshape : Grammar.shape r.joinCondition = (.word .ON ++ f ||| g))
    (hbars : g.rules.all (!r.isExpression ·)) (hn : n.Formed) (hrule : n.rule = r.joinCondition) :
    (n.hasKeyword .ON = false → n.findChild? r.isExpression = none) ∧
      L.marks n = L.told (n.findChild? r.isExpression) := by
  constructor
  · intro hon
    have h := hn.matches_children
    rw [hrule, hshape] at h
    obtain ⟨_, ys, hchildren, ⟨t, rfl, ht⟩, -⟩ | h := h
    · have htoken : t ∈ n.tokens := by
        unfold Node.tokens
        rw [hchildren]
        exact List.mem_cons_self
      have hyes : n.hasKeyword .ON := List.any_eq_true.2 ⟨t, htoken, ht⟩
      rw [hon] at hyes
      contradiction
    · apply List.find?_eq_none.2
      intro k hk
      simpa using List.all_eq_true.1 hbars _ (h.rule_mem hk)
  · rw [Lineage.marks_singles hn hrule _ hr.joinCondition]
    simp

theorem predicateExpression_marks (hn : n.Formed) (hrule : n.rule = r.predicateExpression) :
    ∃ m, n.firstChild? = some m ∧ r.isPredicate m.rule ∧ L.marks n = L.marks m := by
  obtain ⟨hrequires, hleading, hsingly⟩ := hr.predicateExpression
  obtain ⟨m, hm, hmarks⟩ := Lineage.marks_only hn hrule _ ⟨hrequires, hsingly⟩
  exact ⟨m, (hn.firstChild?_eq hrule _ ⟨hrequires, hleading⟩).trans hm,
    Node.rule_of_findChild? hm, hmarks⟩

omit hr in
theorem comparison_marks {ps : List ρ} {p q : Node ρ → Bool}
    (hshape : Grammar.shape r.comparison =
      Shape.sequence [.node ps p, .one r.comparisonOperator, .node ps q])
    (hpredicates : ∀ rule ∈ ps, r.isPredicate rule ∧ rule ≠ r.comparisonOperator)
    (hoperator : r.isPredicate r.comparisonOperator = false ∧ L.bare r.comparisonOperator)
    (hwhole : L.whole r.comparison) (hn : n.Formed) (hrule : n.rule = r.comparison) :
    ∃ a b sign, n.childrenThat r.isPredicate = [a, b] ∧
      n.child? r.comparisonOperator = some sign ∧ L.marks n = L.marks a ++ L.marks b := by
  have h := hn.matches_children
  rw [hrule, hshape] at h
  obtain ⟨_, _, hchildren, ⟨a, rfl, ha, -⟩, _, _, rfl, ⟨sign, rfl, hsign, -⟩, b, rfl, hb, -⟩ := h
  rw [List.mem_singleton] at hsign
  have hnodes : n.childNodes = [a, sign, b] := by
    rw [Node.childNodes_eq, hchildren]
    rfl
  refine ⟨a, b, sign, ?_, ?_, ?_⟩
  · unfold Node.childrenThat
    simp [hnodes, hpredicates _ ha, hpredicates _ hb, hsign, hoperator]
  · unfold Node.child? Node.findChild?
    simp [hnodes, hpredicates _ ha, hsign]
  · rw [Lineage.marks_children (by rwa [hrule]), hnodes]
    simp [L.marks_eq_nil sign (by rw [hsign]; exact hoperator.2)]

theorem among_marks (hn : n.Formed) (hrule : n.rule = r.among) :
    ∃ subject, n.findChild? r.isPredicate = some subject ∧
      ((∃ m, n.findChild? r.isSelect = some m ∧ L.marks n = L.marks subject ++ L.marks m) ∨
        n.findChild? r.isSelect = none ∧ ∃ list, n.child? r.inList = some list ∧
          (∀ m ∈ list.childNodes, r.isExpression m.rule) ∧
          L.marks n = L.marks subject ++ list.childNodes.flatMap L.marks) := by
  obtain ⟨hsubject, hsource, hone, hsingly⟩ := hr.among
  obtain ⟨subject, hsubject⟩ := hn.exists_child hrule _ hsubject
  obtain ⟨m, hm⟩ := hn.exists_child hrule _ hsource
  have hfind : ∀ q : ρ → Bool, (∀ rule, q rule → r.isInSource rule) →
      n.findChild? q = if q m.rule then some m else none :=
    fun q => hn.findChild?_of_single (by rwa [hrule]) hm
  have hmarks : L.marks n = L.marks subject ++ L.marks m := by
    rw [Lineage.marks_singles hn hrule _ hsingly]
    simp [hsubject, hm]
  refine ⟨subject, hsubject, ?_⟩
  by_cases hselect : r.isSelect m.rule
  · left
    refine ⟨m, ?_, hmarks⟩
    rw [hfind _ fun rule h => by simp [Roles.isInSource, h], if_pos hselect]
  · right
    have hlist : m.rule = r.inList := by
      have h := Node.rule_of_findChild? hm
      simpa [Roles.isInSource, hselect] using h
    refine ⟨?_, m, ?_, ?_, ?_⟩
    · rw [hfind _ fun rule h => by simp [Roles.isInSource, h], if_neg hselect]
    · unfold Node.child?
      rw [hfind _ fun rule h => by simp [Roles.isInSource, eq_of_beq h], if_pos (by simp [hlist])]
    · intro k hk
      have hmem := (hn.child (Node.mem_childNodes_of_findChild? hm)).rule_mem hk
      rw [hlist] at hmem
      exact List.all_eq_true.1 hr.inList.2 _ hmem
    · rw [hmarks, Lineage.marks_children (n := m) (by rw [hlist]; exact hr.inList.1)]

end Roles.Shaped

end SqlScript
