import SqlScript.MySql.Script
import SqlScript.Proofs.Issued

/-!
The parsers of MySQL keep the builder in order. Most of them open productions behind all that was
built so far; those that are given a checkpoint wrap what was built since, and take it for their
mark.
-/

namespace SqlScript.MySql

open SqlScript.Parser

def Goal.checkpoint? : Goal → Option Nat
  | .test _ checkpoint _ | .collation checkpoint _ => some checkpoint
  | _ => none

/--
A goal that goes on from the mark, or from where it is asked for.
-/
class Goal.Minds (goal : Goal) (mark : Nat) : Prop where
  eq {checkpoint : Nat} : goal.checkpoint? = some checkpoint → checkpoint = mark

class KeepsGoals (c : Setting) (nested : Goal → Parser Rule Unit) : Prop where
  keeps (goal : Goal) (mark : Nat) : goal.Minds mark → Keeps c mark (nested goal)

section

variable {mark : Nat} (least : Nat)

instance : Goal.query.Minds mark := ⟨nofun⟩
instance : Goal.queryGroup.Minds mark := ⟨nofun⟩
instance : Goal.expression.Minds mark := ⟨nofun⟩
instance : (Goal.condition least).Minds mark := ⟨nofun⟩
instance : (Goal.predicate least).Minds mark := ⟨nofun⟩
instance (test : Test) : (Goal.test test mark least).Minds mark :=
  ⟨fun h => (Option.some.inj h).symm⟩
instance : (Goal.operand least).Minds mark := ⟨nofun⟩
instance : (Goal.collation mark least).Minds mark :=
  ⟨fun h => (Option.some.inj h).symm⟩
instance : Goal.source.Minds mark := ⟨nofun⟩

end

variable {c : Setting} {mark : Nat} {nested : Goal → Parser Rule Unit}
  [hnested : KeepsGoals c nested]

instance (priority := low) Goal.keeps (goal : Goal) [h : goal.Minds mark] :
    Keeps c mark (nested goal) :=
  hnested.keeps goal mark h

/-! ## Names and calls -/

instance dottedName.keeps : Keeps c mark dottedName := by
  unfold dottedName
  infer_instance

instance tableName.keeps : Keeps c mark tableName := by
  unfold tableName
  infer_instance

instance columnName.keeps : Keeps c mark columnName := by
  unfold columnName
  infer_instance

instance uid.keeps : Keeps c mark uid := by
  unfold uid
  infer_instance

instance uidList.keeps : Keeps c mark uidList := by
  unfold uidList
  infer_instance

instance optionalAlias.keeps : Keeps c mark optionalAlias := by
  unfold optionalAlias
  infer_instance

instance overClause.keeps : Keeps c mark overClause := by
  unfold overClause
  infer_instance

instance callArguments.keeps : Keeps c mark callArguments := by
  unfold callArguments
  infer_instance

instance functionCall.keeps : Keeps c mark functionCall := by
  unfold functionCall
  infer_instance

/-! ## Operands -/

instance constant.keeps : Keeps c mark constant := by
  unfold constant
  infer_instance

instance prefixed.keeps (rule : Rule) : Keeps c mark (prefixed nested rule) := by
  unfold prefixed
  infer_instance

instance group.keeps : Keeps c mark (group nested) := by
  unfold group
  infer_instance

instance row.keeps : Keeps c mark (row nested) := by
  unfold row
  infer_instance

instance existence.keeps : Keeps c mark (existence nested) := by
  unfold existence
  infer_instance

instance interval.keeps : Keeps c mark (interval nested) := by
  unfold interval
  infer_instance

instance assignment.keeps : Keeps c mark (assignment nested) := by
  unfold assignment
  infer_instance

instance named.keeps : Keeps c mark named := by
  unfold named
  infer_instance

instance primary.keeps : Keeps c mark (primary nested) := by
  unfold primary
  apply Keeps.ahead_bind
  intro a
  split <;> try split
  all_goals infer_instance

instance operandTail.keeps (checkpoint least : Nat) :
    Keeps c checkpoint (operandTail nested checkpoint least) := by
  unfold operandTail
  infer_instance

instance collation.keeps (checkpoint least : Nat) :
    Keeps c checkpoint (collation nested checkpoint least) := by
  unfold collation
  infer_instance

instance operand.keeps (least : Nat) : Keeps c mark (operand nested least) := by
  unfold operand
  infer_instance

/-! ## Predicates and conditions -/

instance comparisonOperator.keeps : Keeps c mark comparisonOperator := by
  unfold comparisonOperator
  infer_instance

instance expressions.keeps : Keeps c mark (expressions nested) := by
  unfold expressions
  infer_instance

instance inSource.keeps : Keeps c mark (inSource nested) := by
  unfold inSource
  infer_instance

instance applyTest.keeps (test : Test) (checkpoint : Nat) :
    Keeps c checkpoint (applyTest nested test checkpoint) := by
  unfold applyTest
  cases test <;> dsimp only <;> infer_instance

instance furtherTests.keeps (checkpoint least : Nat) :
    Keeps c checkpoint (furtherTests nested checkpoint least) := by
  unfold furtherTests
  apply Keeps.answer_bind
  intro a
  split <;> infer_instance

instance testedPredicate.keeps (test : Test) (checkpoint least : Nat) :
    Keeps c checkpoint (testedPredicate nested test checkpoint least) := by
  unfold testedPredicate
  infer_instance

instance predicate.keeps (least : Nat) : Keeps c mark (predicate nested least) := by
  unfold predicate
  infer_instance

instance predicateExpression.keeps : Keeps c mark (predicateExpression nested) := by
  unfold predicateExpression
  infer_instance

instance condition.keeps (least : Nat) : Keeps c mark (condition nested least) := by
  unfold condition
  infer_instance

/-! ## Clauses and tables -/

instance limitValue.keeps : Keeps c mark limitValue := by
  unfold limitValue
  infer_instance

instance limitClause.keeps : Keeps c mark limitClause := by
  unfold limitClause
  infer_instance

instance lockClause.keeps : Keeps c mark lockClause := by
  unfold lockClause
  infer_instance

instance intoClause.keeps : Keeps c mark intoClause := by
  unfold intoClause
  infer_instance

instance windowClause.keeps : Keeps c mark windowClause := by
  unfold windowClause
  infer_instance

instance whereCondition.keeps : Keeps c mark (whereCondition nested) := by
  unfold whereCondition
  infer_instance

instance havingClause.keeps : Keeps c mark (havingClause nested) := by
  unfold havingClause
  infer_instance

instance sortItem.keeps (rule : Rule) : Keeps c mark (sortItem nested rule) := by
  unfold sortItem
  infer_instance

instance groupByClause.keeps : Keeps c mark (groupByClause nested) := by
  unfold groupByClause
  infer_instance

instance orderByClause.keeps : Keeps c mark (orderByClause nested) := by
  unfold orderByClause
  infer_instance

instance orderAndLimit.keeps : Keeps c mark (orderAndLimit nested) := by
  unfold orderAndLimit
  infer_instance

instance selectTail.keeps : Keeps c mark (selectTail nested) := by
  unfold selectTail
  infer_instance

instance indexHint.keeps : Keeps c mark indexHint := by
  unfold indexHint
  infer_instance

instance partitionGroup.keeps : Keeps c mark partitionGroup := by
  unfold partitionGroup
  infer_instance

instance namedTable.keeps : Keeps c mark namedTable := by
  unfold namedTable
  infer_instance

instance jsonTable.keeps : Keeps c mark jsonTable := by
  unfold jsonTable
  infer_instance

instance subquerySource.keeps : Keeps c mark (subquerySource nested) := by
  unfold subquerySource
  infer_instance

instance joinSpec.keeps : Keeps c mark (joinSpec nested) := by
  unfold joinSpec
  infer_instance

instance innerJoin.keeps : Keeps c mark (innerJoin nested) := by
  unfold innerJoin
  infer_instance

instance straightJoin.keeps : Keeps c mark (straightJoin nested) := by
  unfold straightJoin
  infer_instance

instance outerJoin.keeps : Keeps c mark (outerJoin nested) := by
  unfold outerJoin
  infer_instance

instance naturalJoin.keeps : Keeps c mark (naturalJoin nested) := by
  unfold naturalJoin
  infer_instance

theorem join?.keeps {a : Lookahead} {join : Parser Rule Unit} (h : join? nested a = some join) :
    Keeps c mark join := by
  unfold join? at h
  split at h
  all_goals cases h
  all_goals infer_instance

instance joins.keeps : Keeps c mark (joins nested) := by
  unfold joins
  apply Keeps.of_step
  apply Keeps.answer_bind
  intro a
  split
  · rename_i join hjoin
    have hkeeps : Keeps c mark join := join?.keeps hjoin
    infer_instance
  · infer_instance

instance tableSource.keeps : Keeps c mark (tableSource nested) := by
  unfold tableSource
  infer_instance

instance tableSources.keeps : Keeps c mark (tableSources nested) := by
  unfold tableSources
  infer_instance

instance source.keeps : Keeps c mark (source nested) := by
  unfold source
  infer_instance

/-! ## Queries -/

instance starElement.keeps (n : Nat) : Keeps c mark (starElement n) := by
  unfold starElement
  infer_instance

instance plainElement.keeps : Keeps c mark (plainElement nested) := by
  unfold plainElement
  infer_instance

instance selectElement.keeps : Keeps c mark (selectElement nested) := by
  unfold selectElement
  apply Keeps.answer_bind
  intro a
  split <;> infer_instance

instance selectElements.keeps : Keeps c mark (selectElements nested) := by
  unfold selectElements
  infer_instance

instance fromClause.keeps : Keeps c mark (fromClause nested) := by
  unfold fromClause
  infer_instance

instance querySpecification.keeps (withTail : Bool) :
    Keeps c mark (querySpecification nested withTail) := by
  unfold querySpecification
  infer_instance

instance unionOperand.keeps : Keeps c mark (unionOperand nested) := by
  unfold unionOperand
  infer_instance

instance unionPart.keeps : Keeps c mark (unionPart nested) := by
  unfold unionPart
  infer_instance

instance unionSelect.keeps : Keeps c mark (unionSelect nested) := by
  unfold unionSelect
  infer_instance

instance queryGroup.keeps : Keeps c mark (queryGroup nested) := by
  unfold queryGroup
  infer_instance

instance query.keeps : Keeps c mark (query nested) := by
  unfold query
  infer_instance

/-! ## Changes -/

instance deleteTargets.keeps : Keeps c mark deleteTargets := by
  unfold deleteTargets
  infer_instance

instance expressionOrDefault.keeps : Keeps c mark (expressionOrDefault nested) := by
  unfold expressionOrDefault
  infer_instance

instance valueRow.keeps : Keeps c mark (valueRow nested) := by
  unfold valueRow
  infer_instance

instance updatedElement.keeps : Keeps c mark (updatedElement nested) := by
  unfold updatedElement
  infer_instance

instance updatedElements.keeps : Keeps c mark (updatedElements nested) := by
  unfold updatedElements
  infer_instance

instance insertedRows.keeps : Keeps c mark (insertedRows nested) := by
  unfold insertedRows
  infer_instance

instance insertedColumns.keeps : Keeps c mark insertedColumns := by
  unfold insertedColumns
  infer_instance

instance rowAlias.keeps : Keeps c mark rowAlias := by
  unfold rowAlias
  infer_instance

instance duplicateKeyUpdate.keeps : Keeps c mark (duplicateKeyUpdate nested) := by
  unfold duplicateKeyUpdate
  infer_instance

instance insert.keeps : Keeps c mark (insert nested) := by
  unfold insert
  dsimp only
  infer_instance

instance assignments.keeps : Keeps c mark (assignments nested) := by
  unfold assignments
  infer_instance

instance update.keeps : Keeps c mark (update nested) := by
  unfold update
  infer_instance

instance delete.keeps : Keeps c mark (delete nested) := by
  unfold delete
  infer_instance

/-! ## Scripts -/

instance tokenRun.keeps (rule : Rule) : Keeps c mark (tokenRun rule) := by
  unfold tokenRun
  infer_instance

instance createDatabase.keeps : Keeps c mark createDatabase := by
  unfold createDatabase
  infer_instance

instance definition.keeps : Keeps c mark definition := by
  unfold definition
  infer_instance

instance description.keeps : Keeps c mark description := by
  unfold description
  infer_instance

instance manipulation.keeps : Keeps c mark (manipulation nested) := by
  unfold manipulation
  apply Keeps.of_body
  intro k
  apply Keeps.ahead_bind
  intro a
  split <;> infer_instance

instance Family.statement.keeps (family : Family) : Keeps c mark (family.statement nested) := by
  unfold Family.statement
  cases family <;> infer_instance

instance statement.keeps : Keeps c mark (statement nested) := by
  unfold statement
  apply Keeps.of_body
  intro k
  apply Keeps.answer_bind
  intro a
  split <;> infer_instance

instance separatedStatement.keeps : Keeps c mark (separatedStatement nested) := by
  unfold separatedStatement
  infer_instance

instance statements.keeps : Keeps c mark (statements nested) := by
  unfold statements
  infer_instance

instance attempt.keeps : KeepsGoals c (attempt nested) where
  keeps goal mark h := by
    cases goal with
    | test test checkpoint least =>
      obtain rfl := h.eq rfl
      exact testedPredicate.keeps test checkpoint least
    | collation checkpoint least =>
      obtain rfl := h.eq rfl
      exact collation.keeps checkpoint least
    | _ =>
      unfold attempt
      infer_instance

/-- A parser that may nest no deeper asks nothing of the builder but complains. -/
instance parser.keeps (depth : Nat) : KeepsGoals c (parser depth) := by
  induction depth with
  | zero => exact ⟨fun _ _ _ => Keeps.tooDeep⟩
  | succ depth ih => exact attempt.keeps

instance script.keeps : Keeps c mark (script nested) := by
  unfold script
  infer_instance

end SqlScript.MySql
