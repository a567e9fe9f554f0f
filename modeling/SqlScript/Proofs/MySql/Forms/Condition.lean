import SqlScript.Proofs.MySql.Forms.Operand

/-!
The predicates and conditions of MySQL have their shapes.
-/

namespace SqlScript.MySql

open SqlScript.Parser (Forms Leads Reforms Ends)

variable {c : Setting} {pre : Lookahead → Prop} {h w a : Nat}

instance : Announces (fun a => isComparison (a.kind 0)) (fun t => isComparison t.kind) :=
  announces_kind isComparison rfl

theorem isPlain_of_connective? {kind : TokenKind} {operator : InfixOperator Rule}
    (h : connective? kind = some operator) : kind.isPlain := by
  unfold connective? at h
  split at h
  all_goals first | contradiction | rfl

theorem comparisonOperator_forms :
    Forms c (fun a => isComparison (a.kind 0)) (h + 1) (.one .comparisonOperator) comparisonOperator :=
  .production (.bump_of (fun a => isComparison (a.kind 0)) fun _ ha => ha)

/--
What is known of the tokens in front where a test starts.
-/
def Test.Starts (a : Lookahead) : Test → Prop
  | among | like | regexp => ((a.behind .NOT).kind 0).isPlain
  | between => (a.behind .NOT).isKeyword 0 .BETWEEN
  | null => a.isKeyword 0 .IS
  | comparison => isComparison (a.kind 0)
  | soundsLike | memberOf => (a.kind 0).isPlain ∧ (a.kind 1).isPlain

theorem starts_of_test? {a : Lookahead} {test : Test} (h : test? a = some test) :
    test.Starts a := by
  have hword : ∀ {n word}, a.keyword? n = some word → (a.kind n).isPlain :=
    fun hword => Token.Plain.of_keyword? (Option.isSome_of_eq_some hword)
  have hpair : ∀ {word keyword}, (a.isWord 0 word && a.isKeyword 1 keyword) = true →
      (a.kind 0).isPlain ∧ (a.kind 1).isPlain := by
    intro word keyword hwords
    obtain ⟨hfirst, hsecond⟩ := (Bool.and_eq_true _ _).mp hwords
    exact ⟨Lookahead.isPlain_of_isWord hfirst, Lookahead.isPlain_of_isKeyword hsecond⟩
  unfold test? at h
  unfold Test.Starts Lookahead.behind
  rw [Lookahead.kind_skip, Lookahead.isKeyword_skip]
  dsimp only at h
  split at h
  · cases h
    exact hword ‹_›
  · cases h
    exact beq_of_eq ‹_›
  · cases h
    exact hword ‹_›
  · cases h
    exact hword ‹_›
  · cases h
    exact hword ‹_›
  · split at h
    · contradiction
    split at h
    · generalize (if a.isKeyword 1 .NOT = true then 2 else 1) = n at h
      split at h <;> cases h
      assumption
    split at h
    · cases h
      assumption
    split at h
    · cases h
      exact hpair ‹_›
    split at h <;> cases h
    exact hpair ‹_›

theorem isPlain_behindNot_of_truthTest {a : Lookahead} (h : startsTruthTest a) :
    (((a.skip 1).behind .NOT).kind 0).isPlain := by
  have hplain : (a.kind (if a.isKeyword 1 .NOT then 2 else 1)).isPlain := by
    obtain hword | hword := (Bool.or_eq_true _ _).mp ((Bool.and_eq_true _ _).mp h).2
    · exact Lookahead.isPlain_of_isOneOf hword
    · exact Lookahead.isPlain_of_isWord hword
  unfold Lookahead.behind
  rw [Lookahead.kind_skip, Lookahead.kind_skip, Lookahead.isKeyword_skip]
  split at hplain
  · rwa [if_pos ‹_›]
  · rwa [if_neg ‹_›]

theorem connective_forms (operator : InfixOperator Rule) :
    Forms c (fun a => connective? (a.kind 0) = some operator) (h + 1) (connectiveSign operator)
      (Parser.production .logicalOperator Parser.bump) := by
  have := announces_kind (connective? · == some operator) rfl
  have hbump : Forms c (fun a => connective? (a.kind 0) = some operator) h
      (.token (connective? ·.kind == some operator) : Shape Rule) Parser.bump :=
    .bump_of (fun a => connective? (a.kind 0) == some operator) fun a h => beq_iff_eq.2 h
  have hany : (Shape.token (connective? ·.kind == some operator)).Within
      (shape .logicalOperator) :=
    fun _ ⟨t, hes, ht⟩ => .inr ⟨t, hes, isPlain_of_connective? (eq_of_beq ht)⟩
  apply hbump.production_node hany
  rintro n - ⟨t, hchildren, ht⟩
  have htokens : n.tokens = [t] := by
    unfold Tree.Node.tokens
    rw [hchildren]
    rfl
  rw [htokens]
  exact ht

def term (nested : Goal → Parser Rule Unit) : Parser Rule Unit := do
  if ← Parser.sees (·.isKeyword 0 .NOT) then
    Parser.production .notExpression do
      Parser.bump
      nested (.condition negationStrength)
  else
    predicateExpression nested

theorem condition_eq (nested : Goal → Parser Rule Unit) (least : Nat) :
    MySql.condition nested least = Parser.checkpoint >>= fun m => term nested >>= fun _ =>
      Parser.infixChain m least (connective? <| ·.kind 0)
        (Parser.production .logicalOperator Parser.bump) (nested <| .condition ·) := by
  unfold MySql.condition
  congr 1
  funext m
  exact Parser.sees_ite_assoc

namespace NestedForms

variable {nested : Goal → Parser Rule Unit} (hn : NestedForms c h w nested)

include hn

theorem expressions_forms : Forms c pre (h + 1) (.one .expressions) (expressions nested) :=
  .production hn.expressionList_forms

theorem inSource_forms :
    Forms c pre (h + 1) (.oneIn selects ||| .one .expressions) (inSource nested) :=
  .sees_or (hn.query.anywhere.up (Nat.le_succ h)) hn.expressions_forms

theorem applyTest_reforms (ha : h ≤ a) (test : Test) :
    Reforms c (test? · = some test) (a + 1) (.oneIn predicates) (a + 2)
      (.strong predicates test.strength) (fun _ => True) (applyTest nested test) := by
  have hright : ∀ k, Forms c (fun _ => True) (a + 1) (.strong predicates k)
      (nested (.predicate k)) :=
    fun k => (hn.predicate k).up (Nat.le_succ_of_le ha)
  have hquery := hn.query.up (Nat.le_succ_of_le ha)
  have hnegatable : ∀ {pre : Lookahead → Prop} {f} {p : Parser Rule Unit},
      (∀ b, pre b → ((b.behind .NOT).kind 0).isPlain) → Forms c (fun _ => True) (a + 1) f p →
      Forms c pre (a + 1) (Shape.opt (.word .NOT) ++ (.plainToken ++ f)) (do
        Parser.optionalKeyword .NOT
        Parser.bump
        p) := by
    intro pre f p hpre hp
    exact (Forms.optionalKeyword _).seq_of (.optionalKeyword hpre)
      ((Forms.bump fun _ hplain => hplain).seq hp)
  unfold applyTest
  cases test with
  | among =>
    refine .productionAt_strong (f := .sequence [_, _, _]) ?_ (.refl _) (by decide) ?_
    · exact hnegatable (fun _ => starts_of_test?)
        (.parenthesized (hn.inSource_forms.up (Nat.succ_le_succ ha)))
    · intro n hn
      simp only [Bonds.bond?, bond?, hn]
  | null =>
    refine .productionAt_strong (f := .sequence [_, _, _]) ?_ (.refl _) (by decide) ?_
    · apply (Forms.bumpKeyword fun _ => starts_of_test?).seq
      exact (Forms.optionalKeyword _).seq (.expectKeyword _)
    · intro n hn
      simp only [Bonds.bond?, bond?, hn]
  | comparison =>
    have hcompare : Forms c (test? · = some .comparison) (a + 1) (.one .comparisonOperator)
        comparisonOperator :=
      comparisonOperator_forms.weaken fun _ => starts_of_test?
    apply Reforms.sees_ite
    · refine .productionAt_strong (f := .sequence [_, _, _]) ?_ (.refl _) (by decide) ?_
      · have hoperator : Leads c (fun a => test? a = some .comparison ∧ comparesWithSubquery a = true)
            (fun a => (a.kind 0).isPlain) comparisonOperator := by
          apply Leads.production
          apply Leads.bump
          intro b hb
          rw [Lookahead.kind_skip]
          exact Lookahead.isPlain_of_isOneOf ((Bool.and_eq_true _ _).mp hb.2).1
        apply (hcompare.weaken fun _ hb => hb.1).seq_of hoperator
        exact (Forms.bump fun _ h => h).seq (.parenthesized hquery)
      · intro n hn
        simp only [Bonds.bond?, bond?, hn]
    · refine .productionAt_strong (f := .sequence [_, _]) ?_ (.refl _) (by decide) ?_
      · exact (hcompare.weaken fun _ hb => hb.1).seq (hright _)
      · intro n hn
        simp only [Bonds.bond?, bond?, hn]
  | between =>
    refine .productionAt_strong (f := .sequence [_, _, _, _, _]) ?_ (.refl _) (by decide) ?_
    · have hnot : Leads c (test? · = some .between) (·.isKeyword 0 .BETWEEN)
          (Parser.optionalKeyword .NOT : Parser Rule Unit) :=
        .optionalKeyword fun _ => starts_of_test?
      apply (Forms.optionalKeyword _).seq_of hnot
      apply (Forms.bumpKeyword fun _ hb => hb).seq
      apply (hright _).seq
      exact (Forms.expectKeyword _).seq (hright _)
    · intro n hn
      simp only [Bonds.bond?, bond?, hn]
  | soundsLike =>
    refine .productionAt_strong (f := .sequence [_, _]) ?_ (.refl _) (by decide) ?_
    · exact (Forms.bumpTwo fun _ => starts_of_test?).seq (hright _)
    · intro n hn
      simp only [Bonds.bond?, bond?, hn]
  | like =>
    refine .productionAt_strong (f := .sequence [_, _, _, _]) ?_ (.refl _) (by decide) ?_
    · exact hnegatable (fun _ => starts_of_test?) ((hright _).seq (.afterKeyword (.expect _)))
    · intro n hn
      simp only [Bonds.bond?, bond?, hn]
  | regexp =>
    refine .productionAt_strong (f := .sequence [_, _, _]) ?_ (.refl _) (by decide) ?_
    · exact hnegatable (fun _ => starts_of_test?) (hright _)
    · intro n hn
      simp only [Bonds.bond?, bond?, hn]
  | memberOf =>
    refine .productionAt_strong (f := .sequence [_, _]) ?_ (.refl _) (by decide) ?_
    · exact (Forms.bumpTwo fun _ => starts_of_test?).seq (.parenthesized (hright 0))
    · intro n hn
      simp only [Bonds.bond?, bond?, hn]

theorem furtherTests_reforms (ha : h ≤ a) (least : Nat) :
    Reforms c pre a (.strong predicates least) (a + w) (.strong predicates least) (fun _ => True)
      fun m => furtherTests nested m least :=
  .sees_strong (fun test => hn.test ha test) (fun _ => rfl) rfl

theorem testedPredicate_reforms (ha : h ≤ a) (test : Test) {least : Nat}
    (hleast : least ≤ test.strength) :
    Reforms c (test? · = some test) (a + 1) (.oneIn predicates) (a + 2 + w)
      (.strong predicates least) (fun _ => True) fun m => testedPredicate nested test m least := by
  apply ((hn.applyTest_reforms ha test).sub (.strong (fun _ h => h) hleast) (Nat.le_refl _)).seq
  exact hn.furtherTests_reforms (Nat.le_add_right_of_le ha) least

theorem predicate_forms (least : Nat) :
    Forms c pre (h + 1 + w) (.strong predicates least) (MySql.predicate nested least) := by
  have hfree : (Shape.one .expressionAtomPredicate).Within (.strong predicates least) :=
    .free (by decide) fun n hn => bond?_eq_none hn (by decide)
  unfold MySql.predicate
  apply Forms.checkpoint_bind ((Forms.production (hn.operand 0)).anywhere.sub hfree (Nat.le_refl _))
  exact hn.furtherTests_reforms (Nat.le_succ h) least

theorem connective_reforms (ha : h + 1 ≤ a) (least : Nat) :
    Reforms c (fun _ => True) a (.oneIn terms) (a + 10) (.strong conditions least)
      (Weaker connective? least) fun m =>
        Parser.infixChain m least (connective? <| ·.kind 0)
          (Parser.production .logicalOperator Parser.bump) (nested <| .condition ·) :=
  .infixChain ⟨connective_forms, fun k => (hn.condition k).up (Nat.le_succ h), hn.condition_ends⟩
    connectives_shaped ha least

theorem predicateExpression_forms :
    Forms c pre (h + 1) (.oneIn terms) (predicateExpression nested) := by
  apply (hn.predicate 0).anywhere.checkpoint_bind
  apply Reforms.sees_ite
  · have hbody : Forms c (fun a => True ∧ startsTruthTest a = true) h
        (.sequence [.word .IS, .opt (.word .NOT), .plainToken]) (do
          Parser.bump
          Parser.optionalKeyword .NOT
          Parser.bump : Parser Rule Unit) := by
      have his : Leads c (fun a => True ∧ startsTruthTest a = true)
          (fun a => ((a.behind .NOT).kind 0).isPlain) (Parser.bump : Parser Rule Unit) :=
        .bump fun _ ha => isPlain_behindNot_of_truthTest ha.2
      apply Forms.seq_of (.bumpKeyword fun _ ha => ((Bool.and_eq_true _ _).mp ha.2).1) his
      exact (Forms.optionalKeyword _).seq_of (.optionalKeyword fun _ ha => ha)
        (.bump fun _ ha => ha)
    apply (Reforms.productionAt hbody (.refl _) (Nat.le_refl h)).sub _ (Nat.le_refl _)
    exact .oneIn (by decide)
  · apply (Reforms.productionAt (.pure ()) (.refl _) (Nat.le_refl h)).sub _ (Nat.le_refl _)
    exact .oneIn (by decide)

theorem term_forms : Forms c pre (h + 1) (.oneIn terms) (term nested) := by
  unfold term
  apply Forms.sees_ite
  · apply Forms.among (.production _) (by decide) (Nat.le_refl _)
    exact (Forms.bump_of (·.isKeyword 0 .NOT) fun _ ha => ha.2).seq (hn.condition _)
  · exact hn.predicateExpression_forms

theorem condition_forms (least : Nat) :
    Forms c pre (h + 11) (.strong conditions least) (MySql.condition nested least) := by
  rw [condition_eq]
  exact hn.term_forms.checkpoint_bind (hn.connective_reforms (Nat.le_refl _) least)

theorem condition_weaker (least : Nat) :
    Ends c (Weaker connective? least) (MySql.condition nested least) := by
  rw [condition_eq]
  exact hn.term_forms.checkpoint_ends (hn.connective_reforms (Nat.le_refl _) least)

end NestedForms

end SqlScript.MySql
