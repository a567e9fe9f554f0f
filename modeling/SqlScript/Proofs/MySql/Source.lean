import SqlScript.Proofs.MySql.Condition
import SqlScript.MySql.Source

/-!
Clauses and tables of MySQL in two runs.
-/

namespace SqlScript.MySql

open SqlScript.Simulation

variable {σ : Simulation Rule} {need : Nat}

theorem limitValue.respects : σ.Respects need 1 limitValue limitValue := by
  unfold limitValue
  apply Respects.production
  exact Respects.expectIf _

theorem limitClause.respects : σ.Respects 1 1 limitClause limitClause := by
  unfold limitClause
  apply Respects.production
  apply Respects.seq Respects.bump
  apply Respects.seq limitValue.respects.loose
  exact Respects.eatIf_ite limitValue.respects.loose (Respects.pure ()) (Nat.zero_le 1)

theorem lockClause.respects : σ.Respects 1 1 lockClause lockClause := by
  unfold lockClause
  apply Respects.production
  apply Respects.seq Respects.bump
  exact Respects.bumpBalancedUntil_isOneOf _

theorem intoClause.respects : σ.Respects 1 1 intoClause intoClause := by
  unfold intoClause
  apply Respects.production
  apply Respects.seq Respects.bump
  exact Respects.bumpBalancedUntil_isOneOf _

theorem windowClause.respects : σ.Respects 1 1 windowClause windowClause := by
  unfold windowClause
  apply Respects.production
  apply Respects.seq Respects.bump
  exact Respects.bumpBalancedUntil_isOneOf _

theorem indexHint.respects : σ.Respects 2 1 indexHint indexHint := by
  unfold indexHint
  apply Respects.production
  apply Respects.seq
  · exact (Respects.bumpN 2).weaken (Nat.le_refl _) (by omega)
  apply Respects.seq _ Respects.bumpGroup.loose
  apply Respects.afterKeyword
  apply Respects.eatIf_bind (Respects.pure ()) _ (Nat.zero_le 1)
  exact (Respects.bump_before (Respects.expectKeyword _)).loose

theorem partitionGroup.respects : σ.Respects need 0 partitionGroup partitionGroup := by
  unfold partitionGroup
  apply Respects.afterKeyword
  exact Respects.bumpGroup.loose

theorem namedTable.respects : σ.Respects need 1 namedTable namedTable := by
  unfold namedTable
  apply Respects.production
  apply Respects.seq tableName.respects
  apply Respects.seq partitionGroup.respects
  apply Respects.seq optionalAlias.respects
  exact Respects.whileSees indexHint.respects

theorem jsonTable.respects : σ.Respects 1 1 jsonTable jsonTable := by
  unfold jsonTable
  apply Respects.production
  apply Respects.seq Respects.bump
  apply Respects.seq Respects.bumpGroup.loose
  exact optionalAlias.respects

theorem startsSubquery_detours : Detours startsSubquery :=
  (Detours.opensSubquery [.SELECT]).or

namespace Nests

variable {nested nested' : Goal → Parser Rule Unit} (h : Nests σ nested nested')

include h

theorem respects_whereCondition :
    σ.Respects need 0 (whereCondition nested) (whereCondition nested') := by
  unfold whereCondition
  apply Respects.afterKeyword
  exact h.expression.loose

theorem respects_havingClause : σ.Respects 1 1 (havingClause nested) (havingClause nested') := by
  unfold havingClause
  apply Respects.production
  apply Respects.seq Respects.bump
  exact h.expression.loose

theorem respects_sortItem (rule : Rule) :
    σ.Respects 0 1 (sortItem nested rule) (sortItem nested' rule) := by
  unfold sortItem
  apply Respects.production
  apply Respects.seq h.expression
  exact Respects.optionalOneOf _

theorem respects_groupByClause : σ.Respects 1 1 (groupByClause nested) (groupByClause nested') := by
  unfold groupByClause
  apply Respects.production
  apply Respects.seq Respects.bump
  apply Respects.seq (Respects.expectKeyword _).loose
  apply Respects.seq (Respects.commaSeparated (h.respects_sortItem _)).loose
  exact Respects.ifSees_firm (Respects.bumpN 2).loose

theorem respects_orderByClause : σ.Respects 1 1 (orderByClause nested) (orderByClause nested') := by
  unfold orderByClause
  apply Respects.production
  apply Respects.seq Respects.bump
  apply Respects.seq (Respects.expectKeyword _).loose
  exact (Respects.commaSeparated (h.respects_sortItem _)).loose

theorem respects_orderAndLimit :
    σ.Respects need 0 (orderAndLimit nested) (orderAndLimit nested') := by
  unfold orderAndLimit
  apply Respects.seq
  · exact Respects.ifKeyword _ h.respects_orderByClause.loose
  · exact Respects.ifKeyword _ limitClause.respects.loose

theorem respects_selectTail : σ.Respects need 0 (selectTail nested) (selectTail nested') := by
  unfold selectTail
  apply Respects.seq h.respects_orderAndLimit
  exact Respects.ifSees_firm lockClause.respects.loose

theorem respects_subquerySource :
    σ.Respects 0 1 (subquerySource nested) (subquerySource nested') := by
  unfold subquerySource
  apply Respects.production
  apply Respects.seq_right (Respects.optionalKeyword _)
  apply Respects.seq (Respects.parenthesized h.query)
  apply Respects.seq (Respects.optionalKeyword _)
  apply Respects.seq uid.respects.loose
  apply Respects.ifSees
  exact (Respects.parenthesized uidList.respects).loose

theorem respects_joinSpec : σ.Respects 1 1 (joinSpec nested) (joinSpec nested') := by
  unfold joinSpec
  apply Respects.production
  apply Respects.eatIf_ite h.expression.loose _ (Nat.le_refl 1)
  apply Respects.seq Respects.bump
  exact (Respects.parenthesized uidList.respects).loose

theorem respects_innerJoin : σ.Respects need 1 (innerJoin nested) (innerJoin nested') := by
  unfold innerJoin
  apply Respects.production
  apply Respects.seq_right (Respects.optionalOneOf _)
  apply Respects.seq (Respects.expectKeyword _)
  apply Respects.seq h.source.loose
  exact Respects.whileSees h.respects_joinSpec

theorem respects_straightJoin : σ.Respects 1 1 (straightJoin nested) (straightJoin nested') := by
  unfold straightJoin
  apply Respects.production
  apply Respects.seq Respects.bump
  apply Respects.seq h.source.loose
  exact Respects.ifKeyword _ h.respects_joinSpec.loose

theorem respects_outerJoin : σ.Respects 1 1 (outerJoin nested) (outerJoin nested') := by
  unfold outerJoin
  apply Respects.production
  apply Respects.seq Respects.bump
  apply Respects.seq (Respects.optionalKeyword _)
  apply Respects.seq (Respects.expectKeyword _).loose
  apply Respects.seq h.source.loose
  exact Respects.sees_ite_firm h.respects_joinSpec.loose (Respects.expected _)

theorem respects_naturalJoin : σ.Respects 1 1 (naturalJoin nested) (naturalJoin nested') := by
  unfold naturalJoin
  apply Respects.production
  apply Respects.seq Respects.bump
  have hjoined : σ.Respects 0 0 (do Parser.expectKeyword .JOIN; nested .source)
      (do Parser.expectKeyword .JOIN; nested' .source) :=
    (Respects.expectKeyword _).loose.seq h.source.loose
  apply Respects.eatIf_join hjoined _ (Nat.zero_le 1)
  exact (Respects.optionalKeyword _).seq

theorem respects_joins : σ.Respects need 0 (joins nested) (joins nested') := by
  unfold joins
  apply Respects.repeatWhile
  apply Steps.sees_keyword rfl fun _ => rfl
  · intro a hword
    simp only [join?, hword]
  · intro a a' hword
    unfold join?
    rw [hword]
    split
    · exact .some h.respects_innerJoin
    · exact .some h.respects_innerJoin
    · exact .some h.respects_innerJoin
    · exact .some h.respects_straightJoin
    · exact .some h.respects_outerJoin
    · exact .some h.respects_outerJoin
    · exact .some h.respects_naturalJoin
    · exact .none

theorem respects_tableSource : σ.Respects 0 1 (tableSource nested) (tableSource nested') := by
  unfold tableSource
  apply Respects.sees_ite_firm (n := 1) jsonTable.respects
  apply Respects.production
  apply Respects.seq h.source
  exact h.respects_joins

theorem respects_tableSources : σ.Respects need 1 (tableSources nested) (tableSources nested') := by
  unfold tableSources
  apply Respects.production
  exact Respects.commaSeparated h.respects_tableSource

theorem deep_subquerySource : σ.Deep (σ.small.limit + 1) (subquerySource nested) := by
  unfold subquerySource
  apply Deep.production
  apply Deep.optionalKeyword
  exact h.deep.parenthesized.bind

theorem respects_source : σ.Respects 0 1 (MySql.source nested) (MySql.source nested') := by
  unfold MySql.source
  apply Respects.detour_ite startsSubquery_detours h.respects_subquerySource _ h.deep_subquerySource
  apply Respects.sees_ite _ namedTable.respects
  apply Respects.production
  exact Respects.parenthesized h.respects_tableSources

end Nests

end SqlScript.MySql
