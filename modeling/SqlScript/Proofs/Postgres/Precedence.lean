import SqlScript.Proofs.Postgres.Lineage
import SqlScript.Proofs.Precedence.Basic

/-!
PostgreSQL expressions keep to the strengths of their operators.
-/

namespace SqlScript.Postgres

open SqlScript.Tree (Node Element)

def denoted? (kind : TokenKind) : Option LogicalOperator :=
  match kind with
  | .keyword .OR => some .or
  | .keyword .AND => some .and
  | _ => none

def madeBy? (rule : Rule) : Option Test :=
  match rule with
  | .aExprIsNull | .aExprIs => some .is
  | .aExprCompare | .aExprSubqueryCompare => some .comparison
  | .aExprIn => some .among
  | .aExprBetween => some .between
  | .aExprLike => some .like
  | _ => none

def precedence : Precedence Rule where
  denoted? := denoted?
  isConnective rule := rule == .aExprAnd || rule == .aExprOr
  isNegation rule := rule == .aExprNot
  between := .aExprBetween
  isPredicate := Rule.isPredicateForm
  comparisonOperator := .compareOp
  isInfix rule :=
    rule == .aExprCompare || rule == .aExprBetween || rule == .aExprLike || rule == .aExprIs
  strength? rule := (madeBy? rule).map (·.strength)

variable {c : Context} {text : List Char} {n m : Node Rule} {k : Nat}

theorem bond?_of_strength? (h : precedence.strength? n.rule = some k) : bond? n = some k := by
  obtain ⟨test, htest, rfl⟩ := Option.map_eq_some_iff.1 h
  unfold madeBy? at htest
  unfold bond?
  split at htest
  all_goals first
    | contradiction
    | cases htest
      simp_all

theorem bond?_lt_negation (h : precedence.isConnective n.rule) :
    ∃ k, bond? n = some k ∧ k < negationStrength := by
  simp only [precedence, Bool.or_eq_true, beq_iff_eq] at h
  unfold bond?
  obtain h | h := h
  all_goals
    rw [h]
    exact ⟨_, rfl, by decide⟩

theorem strong_right {strength : Nat} :
    (Shape.strong predicates (strength + 1)).Guards (precedence.Right strength) :=
  Precedence.strong_right (by decide) fun _ _ => bond?_of_strength?

theorem not_and_of_isSymmetry {t : Token} (h : isSymmetry t) : t.isKeyword .AND = false := by
  unfold isSymmetry Token.isWord at h
  unfold Token.isKeyword Token.keyword?
  cases hk : t.kind <;> simp_all
  rintro rfl
  revert h
  decide +kernel

theorem ordered_of_formed (hn : n.Formed) : n.Ordered precedence where
  negation hrule m hm := by
    have hshape : (shape .aExprNot).Guards
        fun m => ∀ k, bond? m = some k → negationStrength ≤ k :=
      .append (.of_rules_eq_nil rfl) (.strong fun _ _ hbond => hbond)
    have hmatches := hn.matches_children
    rw [eq_of_beq hrule] at hmatches
    rw [Bool.not_eq_true']
    cases hconnective : precedence.isConnective m.rule with
    | false => rfl
    | true =>
      obtain ⟨k, hk, hlt⟩ := bond?_lt_negation hconnective
      have := hshape hmatches m hm k hk
      omega
  between hrule := by
    have hshape : (shape .aExprBetween).Counts (·.isKeyword .AND) 1 :=
      .append (.node _ _) (.append (.opt (.word_of_ne (by decide)))
        (.append (.word_of_ne (by decide)) (.append (.opt (.token_not fun _ => not_and_of_isSymmetry))
          (.append (.node _ _) (.append (.word _) (.node _ _))))))
    have hmatches := hn.matches_children
    rw [hrule] at hmatches
    rw [← List.countP_eq_length_filter]
    exact hshape hmatches
  rights h := by
    simp only [precedence, Bool.or_eq_true, beq_iff_eq] at h
    obtain ((h | h) | h) | h := h
    · exact Precedence.exists_rights hn h rfl (.refl _) (.append Precedence.sign_right strong_right)
    · exact Precedence.exists_rights hn h rfl (.refl _) (.append (.of_rules_eq_nil rfl)
        (.append (.of_rules_eq_nil rfl) (.append (.of_rules_eq_nil rfl) (.append strong_right
          (.append (.of_rules_eq_nil rfl) strong_right)))))
    · exact Precedence.exists_rights hn h rfl (.refl _) (.append (.of_rules_eq_nil rfl)
        (.append (.of_rules_eq_nil rfl) (.append (.of_rules_eq_nil rfl) (.append strong_right
          (.opt (.append (.of_rules_eq_nil rfl) strong_right))))))
    · exact Precedence.exists_rights hn h rfl (.refl _) (.append (.of_rules_eq_nil rfl)
        (.or (.of_rules_eq_nil rfl) (.append (.of_rules_eq_nil rfl) (.append (.of_rules_eq_nil rfl)
          strong_right))))

theorem rule_of_connective {operator : LogicalOperator} (h : Read.connectiveOf? n = some operator) :
    n.rule = .aExprAnd ∧ operator = .and ∨ n.rule = .aExprOr ∧ operator = .or := by
  unfold Read.connectiveOf? at h
  split at h
  · cases h
    exact .inl ⟨‹_›, rfl⟩
  · cases h
    exact .inr ⟨‹_›, rfl⟩
  · contradiction

theorem bond?_of_connective {operator : LogicalOperator}
    (h : Read.connectiveOf? n = some operator) : bond? n = some (operator.rank + 1) := by
  unfold bond?
  obtain ⟨hrule, rfl⟩ | ⟨hrule, rfl⟩ := rule_of_connective h
  all_goals
    rw [hrule]
    rfl

theorem denoted?_of_connective? {kind : TokenKind} {rule : Rule} {connective : LogicalOperator}
    (h : connective? kind = some ⟨rule, connective.rank + 1⟩) :
    denoted? kind = some connective := by
  unfold connective? at h
  split at h
  all_goals first
    | contradiction
    | cases connective <;> first | rfl | cases h

theorem joins_of_chain (rule : Rule) {connective : LogicalOperator}
    (h : (connectives.chain ⟨rule, connective.rank + 1⟩).Matches n.children) :
    n.Joins denoted? connective (n.childrenThat Rule.isExpressionForm) ∧
      ∀ m ∈ n.childrenThat Rule.isExpressionForm, ∀ inner,
        Read.connectiveOf? m = some inner → connective.rank < inner.rank := by
  have hsign : ∀ xs, (operatorSign connective? ⟨rule, connective.rank + 1⟩).Matches xs →
      (∃ t, Tree.leaves xs = [t] ∧ denoted? t.kind = some connective) ∧
        ∀ m ∈ Tree.nodesOf xs, Rule.isExpressionForm m.rule = false := by
    rintro _ ⟨t, rfl, ht⟩
    exact ⟨⟨t, Tree.leaves_token t, denoted?_of_connective? (eq_of_beq ht)⟩, by simp⟩
  obtain ⟨hjoins, hbonds⟩ := Node.Joins.of_chain (p := Rule.isExpressionForm) h (by decide)
    fun xs hxs _ => hsign xs hxs
  refine ⟨hjoins, fun m hm inner hinner => ?_⟩
  exact Nat.lt_of_succ_lt_succ (hbonds m hm _ (bond?_of_connective hinner))

theorem joins_of_connective (hn : n.Formed) {operator : LogicalOperator}
    (h : Read.connectiveOf? n = some operator) :
    n.Joins denoted? operator (n.childrenThat Rule.isExpressionForm) ∧
      ∀ m ∈ n.childrenThat Rule.isExpressionForm, ∀ inner,
        Read.connectiveOf? m = some inner → operator.rank < inner.rank := by
  have hmatches := hn.matches_children
  obtain ⟨hrule, rfl⟩ | ⟨hrule, rfl⟩ := rule_of_connective h
  · rw [hrule] at hmatches
    exact joins_of_chain .aExprAnd hmatches
  · rw [hrule] at hmatches
    exact joins_of_chain .aExprOr hmatches

end SqlScript.Postgres
