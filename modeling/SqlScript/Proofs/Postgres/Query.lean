import SqlScript.Proofs.Postgres.Source
import SqlScript.Postgres.Query

/-!
Queries of PostgreSQL in two runs.
-/

namespace SqlScript.Postgres

open SqlScript.Simulation

variable {σ : Simulation Rule} {need : Nat}

instance : Steady 0 startsSetOperation where
  eq := by
    intro a a' hs _
    apply hs.topLevelAny
    exact fun t t' hk => Token.isOneOf_congr hk _

instance : Steady 0 startsWeakOperation where
  eq := by
    intro a a' hs _
    apply hs.topLevelAny
    exact fun t t' hk => Token.isOneOf_congr hk _

theorem optionalLabel.respects : σ.Respects need 0 optionalLabel optionalLabel := by
  unfold optionalLabel
  apply Respects.eatIf_ite _ _ (Nat.zero_le 1)
  · exact Respects.production _ (Respects.expectIf _).loose
  · exact Respects.ifSees_firm (n := 1) (Respects.production _ Respects.bump.loose)

theorem setOperator.respects : σ.Respects 1 1 setOperator setOperator := by
  unfold setOperator
  exact Respects.bump.seq (Respects.optionalOneOf _)

namespace Nests

variable {nested nested' : Goal → Parser Rule Unit} (h : Nests σ nested nested')

include h

theorem respects_target : σ.Respects 0 1 (target nested) (target nested') := by
  unfold target
  apply Respects.sees_ite_firm (n := 1)
  · exact Respects.production _ Respects.bump
  · apply Respects.production
    exact h.expression.seq optionalLabel.respects

theorem respects_targets : σ.Respects need 1 (targets nested) (targets nested') := by
  unfold targets
  apply Respects.production
  apply Respects.commaSeparatedFrom _ h.respects_target.loose
  exact Respects.eatIf_bind (Respects.pure ()) h.respects_target.lift (Nat.le_refl 1)

theorem respects_simpleSelect (withTail : Bool) :
    σ.Respects need 1 (simpleSelect nested withTail) (simpleSelect nested' withTail) := by
  unfold simpleSelect
  apply Respects.production
  apply Respects.seq (Respects.expectKeyword _)
  have hend : σ.Respects 0 0
      (do
        targets nested
        Parser.ifKeyword .INTO intoClause
        Parser.ifKeyword .FROM (tablesClause nested .fromClause)
        Parser.ifKeyword .WHERE (whereClause nested)
        Parser.ifKeyword .GROUP groupByClause
        Parser.ifKeyword .HAVING (havingClause nested)
        Parser.ifKeyword .WINDOW windowClause
        if withTail then
          orderAndLimit nested)
      (do
        targets nested'
        Parser.ifKeyword .INTO intoClause
        Parser.ifKeyword .FROM (tablesClause nested' .fromClause)
        Parser.ifKeyword .WHERE (whereClause nested')
        Parser.ifKeyword .GROUP groupByClause
        Parser.ifKeyword .HAVING (havingClause nested')
        Parser.ifKeyword .WINDOW windowClause
        if withTail then
          orderAndLimit nested') := by
    apply Respects.seq h.respects_targets.loose
    apply Respects.seq (Respects.ifKeyword _ intoClause.respects.loose)
    apply Respects.seq (Respects.ifKeyword _ (h.respects_tablesClause _).loose)
    apply Respects.seq (Respects.ifKeyword _ h.respects_whereClause.loose)
    apply Respects.seq (Respects.ifKeyword _ groupByClause.respects.loose)
    apply Respects.seq (Respects.ifKeyword _ h.respects_havingClause.loose)
    apply Respects.seq (Respects.ifKeyword _ windowClause.respects.loose)
    cases withTail with
    | true => exact h.respects_orderAndLimit
    | false => exact Respects.pure ()
  apply Respects.eatIf_bind hend _ (Nat.zero_le 1)
  exact (Respects.ifKeyword _ distinctClause.respects.loose).seq hend

theorem respects_setOperand : σ.Respects need 1 (setOperand nested) (setOperand nested') := by
  unfold setOperand
  exact Respects.sees_ite h.queryGroup (h.respects_simpleSelect false)

theorem respects_intersections {m m' : Nat} (hm : σ.mark m m') :
    σ.Respects need 0 (intersections nested m) (intersections nested' m') := by
  unfold intersections
  apply Respects.ifKeyword
  apply Respects.productionAt hm
  apply Respects.whileSees (n := 1)
  apply Respects.production
  exact setOperator.respects.seq h.respects_setOperand.loose

theorem respects_setTerm (mixed : Bool) :
    σ.Respects need 1 (setTerm nested mixed) (setTerm nested' mixed) := by
  unfold setTerm
  apply Respects.checkpoint_bind
  intro m m' hm
  apply Respects.seq h.respects_setOperand
  cases mixed with
  | true => exact h.respects_intersections hm
  | false => exact Respects.pure ()

theorem respects_setOperation : σ.Respects need 1 (setOperation nested) (setOperation nested') := by
  unfold setOperation
  apply Respects.production
  apply Respects.sees_bind
  intro mixed
  apply Respects.seq (h.respects_setTerm mixed)
  apply Respects.seq _ h.respects_selectTail
  apply Respects.whileSees (n := 1)
  apply Respects.production
  exact setOperator.respects.seq (h.respects_setTerm mixed).loose

theorem respects_queryGroup :
    σ.Respects 0 1 (Postgres.queryGroup nested) (Postgres.queryGroup nested') := by
  unfold Postgres.queryGroup
  apply Respects.production
  apply Respects.parenthesized
  apply Respects.sees_ite h.respects_setOperation
  apply Respects.sees_ite
  · exact h.queryGroup.seq h.respects_selectTail
  · apply Respects.seq (h.respects_simpleSelect true)
    exact Respects.ifKeyword _ lockClause.respects.loose

theorem respects_query : σ.Respects 0 1 (Postgres.query nested) (Postgres.query nested') := by
  unfold Postgres.query
  apply Respects.sees_ite h.respects_setOperation
  apply Respects.sees_ite
  · apply Respects.production
    exact h.queryGroup.seq h.respects_selectTail
  · apply Respects.production
    apply Respects.seq (h.respects_simpleSelect true)
    exact Respects.ifKeyword _ lockClause.respects.loose

end Nests

end SqlScript.Postgres
