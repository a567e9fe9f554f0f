import SqlScript.Proofs.MySql.Lineage
import SqlScript.Proofs.Precedence.Basic

/-!
MySQL expressions keep to the strengths of their operators.
-/

namespace SqlScript.MySql

open SqlScript.Tree (Node Element)

def madeBy? (rule : Rule) : Option Test :=
  match rule with
  | .inPredicate => some .among
  | .isNullPredicate => some .null
  | .binaryComparisonPredicate | .subqueryComparisonPredicate => some .comparison
  | .betweenPredicate => some .between
  | .soundsLikePredicate => some .soundsLike
  | .likePredicate => some .like
  | .regexpPredicate => some .regexp
  | .jsonMemberOfPredicate => some .memberOf
  | _ => none

def precedence : Precedence Rule where
  denoted? := denoted?
  isConnective rule := rule == .logicalExpression
  isNegation rule := rule == .notExpression || rule == .unaryExpressionAtom
  between := .betweenPredicate
  isPredicate := Rule.isPredicateForm
  comparisonOperator := .comparisonOperator
  isInfix rule :=
    rule == .binaryComparisonPredicate || rule == .betweenPredicate ||
      rule == .soundsLikePredicate || rule == .likePredicate || rule == .regexpPredicate
  strength? rule := (madeBy? rule).map (·.strength)

variable {c : Context} {text : List Char} {n m : Node Rule} {k : Nat}

theorem bond?_of_strength? (h : precedence.strength? n.rule = some k) : bond? n = some k := by
  obtain ⟨test, htest, rfl⟩ := Option.map_eq_some_iff.1 h
  unfold madeBy? at htest
  unfold bond?
  split at htest
  all_goals first
    | contradiction
    | cases htest
      simp_all

theorem bond?_of_chain (connective : LogicalOperator) (hrule : n.rule = .logicalExpression)
    (h : (connectives.chain ⟨.logicalExpression, connectiveStrength connective⟩).Matches n.children) :
    bond? n = some (connectiveStrength connective) := by
  have hkind : ∃ kind, connective? kind =
      some ⟨.logicalExpression, connectiveStrength connective⟩ := by
    cases connective
    · exact ⟨.keyword .AND, rfl⟩
    · exact ⟨.keyword .OR, rfl⟩
    · exact ⟨.keyword .XOR, rfl⟩
  obtain ⟨kind, hkind⟩ := hkind
  exact connectives_shaped.bond_chain hkind hrule h

theorem bond?_lt_negation (hn : n.Formed) (hrule : n.rule = .logicalExpression) :
    ∃ k, bond? n = some k ∧ k < negationStrength := by
  have h := hn.matches_children
  rw [hrule] at h
  obtain (h | h) | h := h
  · exact ⟨_, bond?_of_chain .or hrule h, by decide⟩
  · exact ⟨_, bond?_of_chain .xor hrule h, by decide⟩
  · exact ⟨_, bond?_of_chain .and hrule h, by decide⟩

theorem strong_right {strength : Nat} :
    (Shape.strong predicates (strength + 1)).Guards (precedence.Right strength) :=
  Precedence.strong_right (by decide) fun _ _ => bond?_of_strength?

theorem not_connective_of_negation (hn : n.Formed) (hrule : precedence.isNegation n.rule)
    (hm : m ∈ n.childNodes) : !precedence.isConnective m.rule := by
  rw [Bool.not_eq_true']
  simp only [precedence, Bool.or_eq_true, beq_iff_eq] at hrule
  obtain hrule | hrule := hrule
  · have hshape : (shape .notExpression).Guards
        fun m => ∀ k, bond? m = some k → negationStrength ≤ k :=
      .append (.of_rules_eq_nil rfl) (.strong fun _ _ hbond => hbond)
    have hmatches := hn.matches_children
    rw [hrule] at hmatches
    cases hconnective : precedence.isConnective m.rule with
    | false => rfl
    | true =>
      obtain ⟨k, hk, hlt⟩ := bond?_lt_negation (hn.child hm) (eq_of_beq hconnective)
      have := hshape hmatches m hm k hk
      omega
  · have hrules : ∀ rule ∈ (shape .unaryExpressionAtom).rules,
        precedence.isConnective rule = false := by decide
    exact hrules _ (hn.rule_mem_of_rule hrule hm)

theorem ordered_of_formed (hn : n.Formed) : n.Ordered precedence where
  negation hrule _ hm := not_connective_of_negation hn hrule hm
  between hrule := by
    have hshape : (shape .betweenPredicate).Counts (·.isKeyword .AND) 1 :=
      .append (.node _ _) (.append (.opt (.word_of_ne (by decide)))
        (.append (.word_of_ne (by decide)) (.append (.node _ _) (.append (.word _) (.node _ _)))))
    have hmatches := hn.matches_children
    rw [hrule] at hmatches
    rw [← List.countP_eq_length_filter]
    exact hshape hmatches
  rights h := by
    simp only [precedence, Bool.or_eq_true, beq_iff_eq] at h
    obtain (((h | h) | h) | h) | h := h
    · exact Precedence.exists_rights hn h rfl (.refl _) (.append Precedence.sign_right strong_right)
    · exact Precedence.exists_rights hn h rfl (.refl _) (.append (.of_rules_eq_nil rfl)
        (.append (.of_rules_eq_nil rfl) (.append strong_right (.append (.of_rules_eq_nil rfl)
          strong_right))))
    · exact Precedence.exists_rights hn h rfl (.refl _) (.append (.of_rules_eq_nil rfl) strong_right)
    · exact Precedence.exists_rights hn h rfl (.refl _) (.append (.of_rules_eq_nil rfl)
        (.append (.of_rules_eq_nil rfl) (.append strong_right (.of_rules_eq_nil rfl))))
    · exact Precedence.exists_rights hn h rfl (.refl _) (.append (.of_rules_eq_nil rfl)
        (.append (.of_rules_eq_nil rfl) strong_right))

theorem denoted_of_sign (hn : n.Formed) {connective : LogicalOperator} {es : List (Element Rule)}
    (h : (connectiveSign ⟨.logicalExpression, connectiveStrength connective⟩).Matches es)
    (hes : ∀ m ∈ Tree.nodesOf es, m ∈ n.childNodes) :
    (∃ t, Tree.leaves es = [t] ∧ denoted? t.kind = some connective) ∧
      ∀ m ∈ Tree.nodesOf es, Rule.isExpressionForm m.rule = false := by
  obtain ⟨sign, rfl, hrule, hsign⟩ := h
  have hrule := List.mem_singleton.1 hrule
  obtain ⟨t, ht, hop⟩ := (Option.any_eq_true _ _).1 hsign
  have hchildren := Read.children_of_connective (hn.child (hes sign (by simp))) hrule ht
  have hop := eq_of_beq hop
  rw [connective?_eq] at hop
  obtain ⟨denoted, hdenoted, heq⟩ := Option.map_eq_some_iff.1 hop
  have hsame : denoted = connective := by
    cases denoted <;> cases connective <;> first | rfl | contradiction
  refine ⟨⟨t, ?_, hsame ▸ hdenoted⟩, ?_⟩
  · rw [Tree.leaves_node, hchildren, Tree.leaves_token]
  · simp [hrule, Rule.isExpressionForm]

theorem joins_of_connective (hn : n.Genuine c text) {operator : LogicalOperator}
    (h : Read.connectiveOf? c n = some operator) :
    n.Joins denoted? operator (n.childrenThat Rule.isExpressionForm) ∧
      ∀ m ∈ n.childrenThat Rule.isExpressionForm, ∀ inner,
        Read.connectiveOf? c m = some inner → operator.rank < inner.rank := by
  have hlogical : ∀ {m : Node Rule} {inner}, Read.connectiveOf? c m = some inner →
      m.rule = .logicalExpression := by
    intro m inner hm
    unfold Read.connectiveOf? at hm
    split at hm
    · assumption
    · contradiction
  obtain ⟨_, hread, hchain⟩ := Read.exists_connective hn (hlogical h)
  cases h.symm.trans hread
  obtain ⟨hjoins, hbonds⟩ := Node.Joins.of_chain (p := Rule.isExpressionForm) hchain (by decide)
    fun xs hxs hnodes => denoted_of_sign hn.formed hxs hnodes
  refine ⟨hjoins, fun m hm inner hinner => ?_⟩
  have hm' := hn.child (Node.mem_childNodes_of_mem_childrenThat hm)
  obtain ⟨_, hread', hchain'⟩ := Read.exists_connective hm' (hlogical hinner)
  cases hinner.symm.trans hread'
  have hlt := hbonds m hm _ (bond?_of_chain inner (hlogical hinner) hchain')
  revert hlt
  cases operator <;> cases inner <;> decide

end SqlScript.MySql
