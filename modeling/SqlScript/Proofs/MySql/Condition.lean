import SqlScript.Proofs.MySql.Operand
import SqlScript.MySql.Condition

/-!
Predicates and conditions of MySQL in two runs.
-/

namespace SqlScript.MySql

open SqlScript.Simulation

variable {σ : Simulation Rule} {need : Nat}

theorem comparisonOperator.respects : σ.Respects 1 1 comparisonOperator comparisonOperator := by
  unfold comparisonOperator
  apply Respects.production
  exact Respects.bump

namespace Nests

variable {nested nested' : Goal → Parser Rule Unit} (h : Nests σ nested nested')

include h

theorem respects_expressions : σ.Respects need 1 (expressions nested) (expressions nested') := by
  unfold expressions
  apply Respects.production
  exact Respects.commaSeparated h.expression

theorem respects_inSource : σ.Respects 0 1 (inSource nested) (inSource nested') := by
  unfold inSource
  apply Respects.detour_ite Detours.selectSource h.query h.respects_expressions
  exact h.deep.weaken (Nat.le_succ _)

theorem respects_applyTest (test : Test) {m m' : Nat} (hm : σ.mark m m') :
    σ.Respects 1 1 (applyTest nested test m) (applyTest nested' test m') := by
  have hright := h.predicate (test.strength + 1)
  unfold applyTest
  cases test with
  | among =>
    apply Respects.productionAt hm
    apply Respects.seq_right (Respects.optionalKeyword _)
    exact Respects.bump_before (Respects.parenthesized h.respects_inSource)
  | null =>
    apply Respects.productionAt hm
    apply Respects.seq Respects.bump
    apply Respects.seq (Respects.optionalKeyword _)
    exact (Respects.expectKeyword _).loose
  | comparison =>
    apply Respects.sees_ite_steady
    · apply Respects.productionAt hm
      apply Respects.seq comparisonOperator.respects
      exact (Respects.bump_before (Respects.parenthesized h.query)).loose
    · apply Respects.productionAt hm
      apply Respects.seq comparisonOperator.respects
      exact hright.loose
  | between =>
    apply Respects.productionAt hm
    apply Respects.seq_right (Respects.optionalKeyword _)
    apply Respects.bump_before
    apply Respects.seq hright
    apply Respects.seq (Respects.expectKeyword _).loose
    exact hright.loose
  | soundsLike =>
    apply Respects.productionAt hm
    exact (Respects.bumpN_before 2 hright).lift
  | like =>
    apply Respects.productionAt hm
    apply Respects.seq_right (Respects.optionalKeyword _)
    apply Respects.bump_before
    apply Respects.seq hright
    apply Respects.afterKeyword
    exact (Respects.expect _).loose
  | regexp =>
    apply Respects.productionAt hm
    apply Respects.seq_right (Respects.optionalKeyword _)
    exact Respects.bump_before hright
  | memberOf =>
    apply Respects.productionAt hm
    exact (Respects.bumpN_before 2 (Respects.parenthesized (h.predicate 0))).lift

theorem respects_furtherTests {m m' : Nat} (hm : σ.mark m m') (least : Nat) :
    σ.Respects 0 0 (furtherTests nested m least) (furtherTests nested' m' least) :=
  .sees_some (fun test => .ite (h.test test hm least) (.pure ())) (.pure ())

theorem respects_testedPredicate (test : Test) {m m' : Nat} (hm : σ.mark m m') (least : Nat) :
    σ.Respects 1 0 (testedPredicate nested test m least) (testedPredicate nested' test m' least) := by
  unfold testedPredicate
  apply Respects.seq (h.respects_applyTest test hm).loose
  exact h.respects_furtherTests hm least

theorem respects_predicate (least : Nat) :
    σ.Respects 0 1 (MySql.predicate nested least) (MySql.predicate nested' least) := by
  unfold MySql.predicate
  apply Respects.checkpoint_bind
  intro m m' hm
  apply Respects.seq
  · apply Respects.production
    exact h.operand 0
  · exact h.respects_furtherTests hm least

theorem respects_predicateExpression :
    σ.Respects 0 1 (predicateExpression nested) (predicateExpression nested') := by
  unfold predicateExpression
  apply Respects.checkpoint_bind
  intro m m' hm
  apply Respects.seq (h.predicate 0)
  constructor
  · intro s s' hs _
    have hsees := σ.sees hs
    rw [Parser.sees_bind, Parser.sees_bind, hsees.ask startsTruthTest (.inl (Nat.zero_le _))]
    split
    · obtain ⟨h₂, hnot⟩ := startsTruthTest_le_reach hsees.stop ‹_›
      apply Outcome.productionAt hm _ hs
      intro t t' ht hrest
      rw [← hrest] at h₂ hnot
      obtain ⟨hafter, hreach⟩ := Respects.advance (n := 1) ht h₂
      rw [Parser.bind_ok Parser.bump_eq, Parser.bind_ok Parser.bump_eq]
      apply (Respects.optionalKeyword_bind .NOT Respects.bump hafter.rel hreach _).mono
      · intro _ u u' hu
        exact (hafter.trans hu).weaken (Nat.zero_le _)
      · intro hkeyword
        rw [ParserState.rest_advance] at hkeyword
        unfold Lookahead.isKeyword at hkeyword
        rw [Setting.ahead, Lookahead.token_tail] at hkeyword
        exact (Respects.advance (n := 2) ht (hnot hkeyword)).2
    · exact Respects.productionAt hm _ (Respects.pure ()) hs (Nat.zero_le _)
  · intro hb
    apply Parser.Forward.sees_ite
    · apply Parser.Forward.productionAt
      exact Parser.Forward.bump.bind fun _ => (Parser.Forward.optionalKeyword _).bind fun _ => .bump
    · exact .productionAt _ _ (.pure ())

theorem respects_condition (least : Nat) :
    σ.Respects 0 1 (MySql.condition nested least) (MySql.condition nested' least) := by
  unfold MySql.condition
  apply Respects.checkpoint_bind
  intro m m' hm
  have hchain : σ.Respects 0 0
      (Parser.infixChain m least (connective? <| ·.kind 0)
        (Parser.production .logicalOperator Parser.bump) (nested <| .condition ·))
      (Parser.infixChain m' least (connective? <| ·.kind 0)
        (Parser.production .logicalOperator Parser.bump) (nested' <| .condition ·)) :=
    .infixChain_kind hm least rfl rfl (fun _ => rfl) (.production _ .bump) h.condition
  apply Respects.sees_ite_firm (n := 1)
  · apply Respects.seq _ hchain
    apply Respects.production
    apply Respects.seq Respects.bump
    exact (h.condition _).loose
  · exact Respects.seq h.respects_predicateExpression hchain

end Nests

end SqlScript.MySql
