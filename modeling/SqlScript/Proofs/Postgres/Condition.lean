import SqlScript.Proofs.Postgres.Operand
import SqlScript.Postgres.Condition

/-!
Predicates and conditions of PostgreSQL in two runs.
-/

namespace SqlScript.Postgres

open SqlScript.Simulation

variable {σ : Simulation Rule} {need : Nat}

theorem comparisonOperator.respects : σ.Respects 1 1 comparisonOperator comparisonOperator := by
  unfold comparisonOperator
  apply Respects.production
  exact Respects.bump

namespace Nests

variable {nested nested' : Goal → Parser Rule Unit} (h : Nests σ nested nested')

include h

theorem respects_inSource : σ.Respects 0 1 (inSource nested) (inSource nested') := by
  unfold inSource
  apply Respects.detour_ite Detours.selectSource h.query
  · apply Respects.production
    exact h.respects_expressionList
  · exact h.deep.weaken (Nat.le_succ _)

theorem respects_quantifiedSource :
    σ.Respects 0 1 (quantifiedSource nested) (quantifiedSource nested') := by
  unfold quantifiedSource
  apply Respects.opensSubquery_ite
  · exact Respects.parenthesized h.query
  · exact Respects.parenthesized h.expression
  · exact h.deep.parenthesized

theorem respects_truthTest : σ.Respects need 1 (truthTest nested) (truthTest nested') := by
  unfold truthTest
  apply Respects.eatIf_ite (Respects.pure ()) _ (Nat.le_refl 1)
  apply Respects.eatIf_ite _ (Respects.expected _) (Nat.le_refl 1)
  apply Respects.seq (Respects.expectKeyword _).loose
  exact (h.predicate _).loose

theorem respects_isTest {m m' : Nat} (hm : σ.mark m m') :
    σ.Respects 1 1 (isTest nested m) (isTest nested' m') where
  run s s' hs hreach := by
    have hsees := σ.sees hs
    have hcovers : ∀ {n}, n ≤ reach s.rest → Covers (σ.small.ahead s.rest) (σ.large.ahead s'.rest) n :=
      fun hn => .inl (Nat.le_trans hn (reach_le_length _))
    have hle : (if (σ.small.ahead s.rest).isKeyword 1 .NOT then 2 else 1) ≤ reach s.rest := by
      split
      · exact Lookahead.lt_reach_of_kind hsees.stop hreach
          (Rejects.not_isEnd (q := (·.isKeyword 1 .NOT)) ‹_›)
      · exact hreach
    unfold isTest
    rw [Parser.ahead_bind, Parser.ahead_bind,
      hsees.ask (·.isKeyword 0 .IS) (.inl (Nat.zero_le _)),
      hsees.ask (·.isKeyword 1 .NOT) (hcovers hreach)]
    split
    · have hpos : 1 ≤ (if (σ.small.ahead s.rest).isKeyword 1 .NOT then 2 else 1) := by
        split
        · decide
        · decide
      generalize (if (σ.small.ahead s.rest).isKeyword 1 .NOT then 2 else 1) = n at hle hpos
      simp only [hsees.ask (·.isKeyword n .NULL) (hcovers hle)]
      split
      · have hlt := Lookahead.lt_reach_of_kind hsees.stop hle
          (Rejects.not_isEnd (q := (·.isKeyword n .NULL)) ‹_›)
        apply Respects.productionAt hm _ _ hs hlt
        exact (Respects.bumpN (n + 1)).weaken (Nat.le_refl _) (by omega)
      · apply Respects.productionAt hm _ _ hs hle
        exact Respects.seq_right (Respects.bumpN n).loose h.respects_truthTest
    · exact Respects.productionAt hm _ Respects.bump hs hreach
  forward hb := by
    apply Parser.Forward.ahead_bind
    intro a
    apply Parser.Forward.ite
    · apply Parser.Forward.ite
      · exact .productionAt _ _ (.bumpN _)
      · apply Parser.Forward.productionAt
        exact (Parser.Forward.bumpN _).bind fun _ => h.respects_truthTest.onward hb
    · exact .productionAt _ _ .bump

theorem respects_applyTest (test : Test) {m m' : Nat} (hm : σ.mark m m') :
    σ.Respects 1 1 (applyTest nested test m) (applyTest nested' test m') := by
  have hright := h.predicate (test.strength + 1)
  unfold applyTest
  cases test with
  | is => exact h.respects_isTest hm
  | among =>
    apply Respects.productionAt hm
    apply Respects.seq_right (Respects.optionalKeyword _)
    exact Respects.bump_before (Respects.parenthesized h.respects_inSource)
  | comparison =>
    apply Respects.sees_ite_steady
    · apply Respects.productionAt hm
      apply Respects.seq comparisonOperator.respects
      exact (Respects.bump_before h.respects_quantifiedSource).loose
    · apply Respects.productionAt hm
      apply Respects.seq comparisonOperator.respects
      exact hright.loose
  | between =>
    apply Respects.productionAt hm
    apply Respects.seq_right (Respects.optionalKeyword _)
    apply Respects.bump_before
    apply Respects.seq_right Respects.eatIf.discard
    apply Respects.seq hright
    apply Respects.seq (Respects.expectKeyword _).loose
    exact hright.loose
  | like =>
    apply Respects.productionAt hm
    apply Respects.seq_right (Respects.optionalKeyword _)
    apply Respects.seq_right (Respects.optionalKeyword _)
    apply Respects.bump_before
    apply Respects.seq hright
    apply Respects.afterKeyword
    exact hright.loose

theorem respects_furtherTests {m m' : Nat} (hm : σ.mark m m') (least : Nat) :
    σ.Respects 0 0 (furtherTests nested m least) (furtherTests nested' m' least) :=
  .sees_some (fun test => .ite (h.test test hm least) (.pure ())) (.pure ())

theorem respects_testedPredicate (test : Test) {m m' : Nat} (hm : σ.mark m m') (least : Nat) :
    σ.Respects 1 0 (testedPredicate nested test m least) (testedPredicate nested' test m' least) := by
  unfold testedPredicate
  apply Respects.seq (h.respects_applyTest test hm).loose
  exact h.respects_furtherTests hm least

theorem respects_predicate (least : Nat) :
    σ.Respects 0 1 (Postgres.predicate nested least) (Postgres.predicate nested' least) := by
  unfold Postgres.predicate
  apply Respects.checkpoint_bind
  intro m m' hm
  apply Respects.seq
  · apply Respects.production
    exact h.operand 0
  · exact h.respects_furtherTests hm least

theorem respects_condition (least : Nat) :
    σ.Respects 0 1 (Postgres.condition nested least) (Postgres.condition nested' least) := by
  unfold Postgres.condition
  apply Respects.checkpoint_bind
  intro m m' hm
  have hchain : σ.Respects 0 0
      (Parser.infixChain m least (connective? <| ·.kind 0) Parser.bump (nested <| .condition ·))
      (Parser.infixChain m' least (connective? <| ·.kind 0) Parser.bump (nested' <| .condition ·)) :=
    .infixChain_kind hm least rfl rfl (fun _ => rfl) .bump h.condition
  apply Respects.sees_ite_firm (n := 1)
  · apply Respects.seq _ hchain
    apply Respects.production
    apply Respects.seq Respects.bump
    exact (h.condition _).loose
  · apply Respects.seq _ hchain
    apply Respects.production
    exact h.predicate 0

end Nests

end SqlScript.Postgres
