import SqlScript.Proofs.Postgres.Forms.Operand

/-!
The predicates and conditions of PostgreSQL have their shapes.
-/

namespace SqlScript.Postgres

open SqlScript.Parser (Forms Leads Reforms Ends)

variable {c : Setting} {pre : Lookahead → Prop} {h w a : Nat}

instance : Announces (fun a => isComparison (a.kind 0)) (fun t => isComparison t.kind) :=
  announces_kind isComparison rfl

/--
A word that compares texts is in front, or the first of two.
-/
def StartsLike (a : Lookahead) : Prop :=
  (a.kind 0).isPlain ∧ (a.isKeyword 0 .SIMILAR → (a.kind 1).isPlain)

theorem StartsLike.behind {a : Lookahead} (h : StartsLike a) :
    ((a.behind .SIMILAR).kind 0).isPlain := by
  unfold Lookahead.behind
  rw [Lookahead.kind_skip]
  split
  · exact h.2 ‹_›
  · exact h.1

def Test.Starts (a : Lookahead) : Test → Prop
  | is => (a.kind 0).isPlain
  | comparison => isComparison (a.kind 0)
  | among => ((a.behind .NOT).kind 0).isPlain
  | between => (a.behind .NOT).isKeyword 0 .BETWEEN
  | like => StartsLike (a.behind .NOT)

theorem starts_of_test? {a : Lookahead} {test : Test} (h : test? a = some test) :
    test.Starts a := by
  unfold test? at h
  unfold Test.Starts StartsLike Lookahead.behind
  simp only [Lookahead.kind_skip, Lookahead.isKeyword_skip, Nat.add_zero]
  dsimp only at h
  generalize (if a.isKeyword 0 .NOT = true then 1 else 0) = n at h ⊢
  split at h
  · cases h
    exact Lookahead.isPlain_of_isKeyword ‹_›
  split at h
  · cases h
    assumption
  split at h
  · rename_i hwords
    cases h
    obtain hone | htwo := (Bool.or_eq_true _ _).mp hwords
    · refine ⟨Lookahead.isPlain_of_isOneOf hone, fun hsimilar => ?_⟩
      unfold Lookahead.isKeyword Token.isKeyword at hsimilar
      unfold Lookahead.isOneOf Token.isOneOf at hone
      rw [eq_of_beq hsimilar] at hone
      contradiction
    · obtain ⟨hsimilar, hto⟩ := (Bool.and_eq_true _ _).mp htwo
      exact ⟨Lookahead.isPlain_of_isKeyword hsimilar, fun _ => Lookahead.isPlain_of_isKeyword hto⟩
  split at h
  · contradiction
  split at h
  · rename_i hwords
    cases h
    obtain hwords | hword := (Bool.or_eq_true _ _).mp hwords
    · exact ((Bool.or_eq_true _ _).mp hwords).elim Lookahead.isPlain_of_isKeyword
        Lookahead.isPlain_of_isWord
    · exact Lookahead.isPlain_of_isWord hword
  split at h
  · cases h
    assumption
  · contradiction

theorem comparisonOperator_forms :
    Forms c (fun a => isComparison (a.kind 0)) (h + 1) (.one .compareOp) comparisonOperator :=
  .production (.bump_of (fun a => isComparison (a.kind 0)) fun _ ha => ha)

def term (nested : Goal → Parser Rule Unit) : Parser Rule Unit := do
  if ← Parser.sees (·.isKeyword 0 .NOT) then
    Parser.production .aExprNot do
      Parser.bump
      nested (.condition negationStrength)
  else
    Parser.production .aExprPredicate (nested (.predicate 0))

theorem condition_eq (nested : Goal → Parser Rule Unit) (least : Nat) :
    Postgres.condition nested least = Parser.checkpoint >>= fun m => term nested >>= fun _ =>
      Parser.infixChain m least (connective? <| ·.kind 0) Parser.bump
        (nested <| .condition ·) := by
  unfold Postgres.condition
  congr 1
  funext m
  exact Parser.sees_ite_assoc

namespace NestedForms

variable {nested : Goal → Parser Rule Unit} (hn : NestedForms c h w nested)

include hn

theorem inSource_forms :
    Forms c pre (h + 1) (.oneIn selects ||| .one .inList) (inSource nested) := by
  unfold inSource
  apply Forms.sees_or
  · exact hn.query.anywhere.up (Nat.le_succ h)
  · exact .production hn.expressionList_forms

theorem quantifiedSource_forms :
    Forms c pre h (.parens (.oneIn selects) ||| .parens (.strong expressions 0))
      (quantifiedSource nested) := by
  unfold quantifiedSource
  exact .sees_or (.parenthesized hn.query) (.parenthesized hn.expression)

theorem truthTest_forms :
    Forms c pre h (.tokens ||| .sequence [.word .DISTINCT, .word .FROM,
      .strong predicates (Test.is.strength + 1)]) (truthTest nested) := by
  unfold truthTest
  apply (Forms.eatIf_ite (.pure ()) (Forms.eatIf_ite
    ((Forms.expectKeyword _).seq (hn.predicate _)) (Forms.expected (f := .nothing) _))).sub _
    (Nat.le_refl h)
  rintro es (⟨xs, _, rfl, hxs, rfl⟩ | hes | rfl)
  · rw [List.append_nil]
    exact .inl (Shape.Within.token_tokens _ hxs)
  · exact .inr hes
  · exact .inl .tokens_nil

theorem isTest_reforms (ha : h ≤ a) :
    Reforms c (fun b => (b.kind 0).isPlain) a (.oneIn predicates) (a + 1)
      (.strong predicates Test.is.strength) (fun _ => True) (isTest nested) := by
  have hbond : ∀ n : Tree.Node Rule, n.rule = .aExprIsNull → bond? n = some Test.is.strength := by
    intro n hn
    simp only [bond?, hn]
  unfold isTest
  apply Reforms.ahead_bind
  intro x
  by_cases his : x.isKeyword 0 .IS
  · simp only [if_pos his]
    have hplain : ∀ k < if x.isKeyword 1 .NOT = true then 2 else 1, (x.kind k).isPlain := by
      intro k hk
      cases k with
      | zero => exact Lookahead.isPlain_of_isKeyword his
      | succ k =>
        split at hk
        · obtain rfl : k = 0 := by omega
          exact Lookahead.isPlain_of_isKeyword ‹_›
        · omega
    generalize (if x.isKeyword 1 .NOT = true then 2 else 1) = n at hplain
    by_cases hnull : x.isKeyword n .NULL
    · simp only [if_pos hnull]
      refine .productionAt_strong (Forms.bumpN ?_) (.refl _) (by decide) hbond
      rintro _ ⟨-, rfl⟩ k hk
      obtain hlt | rfl : k < n ∨ k = n := by omega
      · exact hplain k hlt
      · exact Lookahead.isPlain_of_isKeyword hnull
    · simp only [if_neg hnull]
      refine .productionAt_strong ((Forms.bumpN ?_).seq (hn.truthTest_forms.up ha)) (.refl _)
        (by decide) ?_
      · rintro _ ⟨-, rfl⟩
        exact hplain
      · intro n hn
        simp only [Bonds.bond?, bond?, hn]
  · simp only [if_neg his]
    exact .productionAt_strong (Forms.bump_tokens fun _ hb => hb.1) (.refl _) (by decide) hbond

theorem applyTest_reforms (ha : h ≤ a) (test : Test) :
    Reforms c (test? · = some test) (a + 1) (.oneIn predicates) (a + 2)
      (.strong predicates test.strength) (fun _ => True) (applyTest nested test) := by
  have hright : ∀ k, Forms c (fun _ => True) (a + 1) (.strong predicates k)
      (nested (.predicate k)) :=
    fun k => (hn.predicate k).up (Nat.le_succ_of_le ha)
  have hnegatable : ∀ {pre : Lookahead → Prop} {f} {p : Parser Rule Unit},
      (∀ b, pre b → ((b.behind .NOT).kind 0).isPlain) → Forms c (fun _ => True) (a + 1) f p →
      Forms c pre (a + 1) (Shape.opt (.word .NOT) ++ (.plainToken ++ f)) (do
        Parser.optionalKeyword .NOT
        Parser.bump
        p) := by
    intro pre f p hpre hp
    exact (Forms.optionalKeyword _).seq_of (.optionalKeyword hpre)
      ((Forms.bump fun _ hplain => hplain).seq hp)
  unfold applyTest
  cases test with
  | is => exact (hn.isTest_reforms (Nat.le_succ_of_le ha)).weaken fun _ => starts_of_test?
  | among =>
    refine .productionAt_strong (f := .sequence [_, _, _]) ?_ (.refl _) (by decide) ?_
    · exact hnegatable (fun _ => starts_of_test?)
        (.parenthesized (hn.inSource_forms.up (Nat.succ_le_succ ha)))
    · intro n hn
      simp only [Bonds.bond?, bond?, hn]
  | comparison =>
    have hcompare : Forms c (test? · = some .comparison) (a + 1) (.one .compareOp)
        comparisonOperator :=
      comparisonOperator_forms.weaken fun _ => starts_of_test?
    apply Reforms.sees_ite
    · refine .productionAt_strong (f := .sequence [_, _, _]) ?_ (.refl _) (by decide) ?_
      · have hoperator : Leads c (fun a => test? a = some .comparison ∧ isQuantified a = true)
            (fun a => (a.kind 0).isPlain) comparisonOperator := by
          apply Leads.production
          apply Leads.bump
          intro b hb
          rw [Lookahead.kind_skip]
          exact Lookahead.isPlain_of_isOneOf ((Bool.and_eq_true _ _).mp hb.2).1
        apply (hcompare.weaken fun _ hb => hb.1).seq_of hoperator
        apply (Forms.bump fun _ hb => hb).seq
        exact hn.quantifiedSource_forms.up (Nat.le_succ_of_le ha)
      · intro n hn
        simp only [Bonds.bond?, bond?, hn]
    · refine .productionAt_strong (f := .sequence [_, _]) ?_ (.refl _) (by decide) ?_
      · exact (hcompare.weaken fun _ hb => hb.1).seq (hright _)
      · intro n hn
        simp only [Bonds.bond?, bond?, hn]
  | between =>
    refine .productionAt_strong (f := .sequence [_, _, _, _, _, _]) ?_ (.refl _) (by decide) ?_
    · have hnot : Leads c (test? · = some .between) (·.isKeyword 0 .BETWEEN)
          (Parser.optionalKeyword .NOT : Parser Rule Unit) :=
        .optionalKeyword fun _ => starts_of_test?
      apply (Forms.optionalKeyword _).seq_of hnot
      apply (Forms.bumpKeyword fun _ hb => hb).seq
      apply Forms.seq (Forms.eatIf (p := isSymmetry)).discard
      apply (hright _).seq
      exact (Forms.expectKeyword _).seq (hright _)
    · intro n hn
      simp only [Bonds.bond?, bond?, hn]
  | like =>
    refine .productionAt_strong (f := .sequence [_, _, _, _, _]) ?_ (.refl _) (by decide) ?_
    · have hnot : Leads c (test? · = some .like) StartsLike
          (Parser.optionalKeyword .NOT : Parser Rule Unit) :=
        .optionalKeyword fun _ => starts_of_test?
      have hsimilar : Leads c StartsLike (fun a => (a.kind 0).isPlain)
          (Parser.optionalKeyword .SIMILAR : Parser Rule Unit) :=
        .optionalKeyword fun _ => StartsLike.behind
      apply (Forms.optionalKeyword _).seq_of hnot
      apply (Forms.optionalKeyword _).seq_of hsimilar
      apply (Forms.bump fun _ hb => hb).seq
      exact (hright _).seq (.afterKeyword (hright _))
    · intro n hn
      simp only [Bonds.bond?, bond?, hn]

theorem furtherTests_reforms (ha : h ≤ a) (least : Nat) :
    Reforms c pre a (.strong predicates least) (a + w) (.strong predicates least) (fun _ => True)
      fun m => furtherTests nested m least :=
  .sees_strong (fun test => hn.test ha test) (fun _ => rfl) rfl

theorem testedPredicate_reforms (ha : h ≤ a) (test : Test) {least : Nat}
    (hleast : least ≤ test.strength) :
    Reforms c (test? · = some test) (a + 1) (.oneIn predicates) (a + 2 + w)
      (.strong predicates least) (fun _ => True) fun m => testedPredicate nested test m least := by
  apply ((hn.applyTest_reforms ha test).sub (.strong (fun _ h => h) hleast) (Nat.le_refl _)).seq
  exact hn.furtherTests_reforms (Nat.le_add_right_of_le ha) least

theorem predicate_forms (least : Nat) :
    Forms c pre (h + 1 + w) (.strong predicates least) (Postgres.predicate nested least) := by
  have hfree : (Shape.one .aExprPrimary).Within (.strong predicates least) :=
    .free (by decide) fun n hn => bond?_eq_none hn (by decide)
  unfold Postgres.predicate
  apply Forms.checkpoint_bind ((Forms.production (hn.operand 0)).anywhere.sub hfree (Nat.le_refl _))
  exact hn.furtherTests_reforms (Nat.le_succ h) least

theorem connective_reforms (ha : h ≤ a) (least : Nat) :
    Reforms c (fun _ => True) a (.oneIn terms) (a + 10) (.strong expressions least)
      (Weaker connective? least) fun m =>
        Parser.infixChain m least (connective? <| ·.kind 0) Parser.bump
          (nested <| .condition ·) :=
  .infixChain (Parser.parsed_of_bump (fun _ => rfl) hn.condition hn.condition_ends)
    connectives_shaped ha least

theorem term_forms : Forms c pre (h + 1) (.oneIn terms) (term nested) := by
  unfold term
  apply Forms.sees_ite
  · apply Forms.among (.production _) (by decide) (Nat.le_refl _)
    exact (Forms.bump_of (·.isKeyword 0 .NOT) fun _ ha => ha.2).seq (hn.condition _)
  · apply Forms.among (.production _) (by decide) (Nat.le_refl _)
    exact (hn.predicate 0).anywhere

theorem condition_forms (least : Nat) :
    Forms c pre (h + 11) (.strong expressions least) (Postgres.condition nested least) := by
  rw [condition_eq]
  exact hn.term_forms.checkpoint_bind (hn.connective_reforms (Nat.le_succ h) least)

theorem condition_weaker (least : Nat) :
    Ends c (Weaker connective? least) (Postgres.condition nested least) := by
  rw [condition_eq]
  exact hn.term_forms.checkpoint_ends (hn.connective_reforms (Nat.le_succ h) least)

end NestedForms

end SqlScript.Postgres
