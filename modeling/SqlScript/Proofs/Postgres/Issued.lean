import SqlScript.Postgres.Script
import SqlScript.Proofs.Issued

/-!
The parsers of PostgreSQL keep the builder in order. Most of them open productions behind all that
was built so far; those that are given a checkpoint wrap what was built since, and take it for their
mark.
-/

namespace SqlScript.Postgres

open SqlScript.Parser

def Goal.checkpoint? : Goal → Option Nat
  | .test _ checkpoint _ | .suffix _ checkpoint _ => some checkpoint
  | _ => none

class Goal.Minds (goal : Goal) (mark : Nat) : Prop where
  eq {checkpoint : Nat} : goal.checkpoint? = some checkpoint → checkpoint = mark

class KeepsGoals (c : Setting) (nested : Goal → Parser Rule Unit) : Prop where
  keeps (goal : Goal) (mark : Nat) : goal.Minds mark → Keeps c mark (nested goal)

section

variable {mark : Nat} (least : Nat)

instance : Goal.query.Minds mark := ⟨nofun⟩
instance : Goal.queryGroup.Minds mark := ⟨nofun⟩
instance : Goal.expression.Minds mark := ⟨nofun⟩
instance : (Goal.condition least).Minds mark := ⟨nofun⟩
instance : (Goal.predicate least).Minds mark := ⟨nofun⟩
instance (test : Test) : (Goal.test test mark least).Minds mark :=
  ⟨fun h => (Option.some.inj h).symm⟩
instance : (Goal.operand least).Minds mark := ⟨nofun⟩
instance (suffix : Suffix) : (Goal.suffix suffix mark least).Minds mark :=
  ⟨fun h => (Option.some.inj h).symm⟩
instance : Goal.source.Minds mark := ⟨nofun⟩

end

variable {c : Setting} {mark : Nat} {nested : Goal → Parser Rule Unit}
  [hnested : KeepsGoals c nested]

instance (priority := low) Goal.keeps (goal : Goal) [h : goal.Minds mark] :
    Keeps c mark (nested goal) :=
  hnested.keeps goal mark h

/-! ## Names and calls -/

instance nameParts.keeps : Keeps c mark nameParts := by
  unfold nameParts
  infer_instance

instance name.keeps : Keeps c mark name := by
  unfold name
  infer_instance

instance nameList.keeps : Keeps c mark nameList := by
  unfold nameList
  infer_instance

instance qualifiedName.keeps : Keeps c mark qualifiedName := by
  unfold qualifiedName
  infer_instance

instance columnReference.keeps : Keeps c mark columnReference := by
  unfold columnReference
  infer_instance

instance anyName.keeps (what : String) : Keeps c mark (anyName what) := by
  unfold anyName
  infer_instance

instance optionalAlias.keeps : Keeps c mark optionalAlias := by
  unfold optionalAlias
  infer_instance

instance typeName.keeps : Keeps c mark typeName := by
  unfold typeName
  infer_instance

instance overClause.keeps : Keeps c mark overClause := by
  unfold overClause
  infer_instance

instance call.keeps : Keeps c mark call := by
  unfold call
  infer_instance

/-! ## Operands -/

instance intervalLiteral.keeps : Keeps c mark intervalLiteral := by
  unfold intervalLiteral
  infer_instance

instance literal.keeps : Keeps c mark literal := by
  unfold literal
  infer_instance

instance array.keeps : Keeps c mark array := by
  unfold array
  infer_instance

instance named.keeps : Keeps c mark named := by
  unfold named
  infer_instance

instance expressionList.keeps : Keeps c mark (expressionList nested) := by
  unfold expressionList
  infer_instance

instance prefixed.keeps : Keeps c mark (prefixed nested) := by
  unfold prefixed
  infer_instance

instance group.keeps : Keeps c mark (group nested) := by
  unfold group
  infer_instance

instance row.keeps : Keeps c mark (row nested) := by
  unfold row
  infer_instance

instance existence.keeps : Keeps c mark (existence nested) := by
  unfold existence
  infer_instance

instance primary.keeps : Keeps c mark (primary nested) := by
  unfold primary
  apply Keeps.ahead_bind
  intro a
  split <;> try split
  all_goals infer_instance

instance operandTail.keeps (checkpoint least : Nat) :
    Keeps c checkpoint (operandTail nested checkpoint least) := by
  unfold operandTail
  have hsuffix : Keeps c checkpoint (do
      match ← sees (suffix? least) with
      | some suffix => nested (.suffix suffix checkpoint least)
      | none => return () : Parser Rule Unit) := by
    apply Keeps.answer_bind
    intro a
    split <;> infer_instance
  infer_instance

instance applySuffix.keeps (suffix : Suffix) (checkpoint : Nat) :
    Keeps c checkpoint (applySuffix nested suffix checkpoint) := by
  unfold applySuffix
  cases suffix <;> infer_instance

instance suffixedOperand.keeps (suffix : Suffix) (checkpoint least : Nat) :
    Keeps c checkpoint (suffixedOperand nested suffix checkpoint least) := by
  unfold suffixedOperand
  infer_instance

instance operand.keeps (least : Nat) : Keeps c mark (operand nested least) := by
  unfold operand
  infer_instance

/-! ## Predicates and conditions -/

instance comparisonOperator.keeps : Keeps c mark comparisonOperator := by
  unfold comparisonOperator
  infer_instance

instance inSource.keeps : Keeps c mark (inSource nested) := by
  unfold inSource
  infer_instance

instance quantifiedSource.keeps : Keeps c mark (quantifiedSource nested) := by
  unfold quantifiedSource
  infer_instance

instance truthTest.keeps : Keeps c mark (truthTest nested) := by
  unfold truthTest
  infer_instance

instance isTest.keeps (checkpoint : Nat) : Keeps c checkpoint (isTest nested checkpoint) := by
  unfold isTest
  dsimp only
  infer_instance

instance applyTest.keeps (test : Test) (checkpoint : Nat) :
    Keeps c checkpoint (applyTest nested test checkpoint) := by
  unfold applyTest
  cases test <;> dsimp only <;> infer_instance

instance furtherTests.keeps (checkpoint least : Nat) :
    Keeps c checkpoint (furtherTests nested checkpoint least) := by
  unfold furtherTests
  apply Keeps.answer_bind
  intro a
  split <;> infer_instance

instance testedPredicate.keeps (test : Test) (checkpoint least : Nat) :
    Keeps c checkpoint (testedPredicate nested test checkpoint least) := by
  unfold testedPredicate
  infer_instance

instance predicate.keeps (least : Nat) : Keeps c mark (predicate nested least) := by
  unfold predicate
  infer_instance

instance condition.keeps (least : Nat) : Keeps c mark (condition nested least) := by
  unfold condition
  infer_instance

/-! ## Clauses and tables -/

instance lockClause.keeps : Keeps c mark lockClause := by
  unfold lockClause
  infer_instance

instance groupByClause.keeps : Keeps c mark groupByClause := by
  unfold groupByClause
  infer_instance

instance windowClause.keeps : Keeps c mark windowClause := by
  unfold windowClause
  infer_instance

instance distinctClause.keeps : Keeps c mark distinctClause := by
  unfold distinctClause
  infer_instance

instance intoClause.keeps : Keeps c mark intoClause := by
  unfold intoClause
  infer_instance

instance returningClause.keeps : Keeps c mark returningClause := by
  unfold returningClause
  infer_instance

instance whereClause.keeps : Keeps c mark (whereClause nested) := by
  unfold whereClause
  infer_instance

instance havingClause.keeps : Keeps c mark (havingClause nested) := by
  unfold havingClause
  infer_instance

instance sortDirection.keeps : Keeps c mark sortDirection := by
  unfold sortDirection
  infer_instance

instance sortItem.keeps : Keeps c mark (sortItem nested) := by
  unfold sortItem
  infer_instance

instance orderByClause.keeps : Keeps c mark (orderByClause nested) := by
  unfold orderByClause
  infer_instance

instance limitClause.keeps : Keeps c mark (limitClause nested) := by
  unfold limitClause
  infer_instance

instance offsetClause.keeps : Keeps c mark (offsetClause nested) := by
  unfold offsetClause
  infer_instance

instance fetchClause.keeps : Keeps c mark (fetchClause nested) := by
  unfold fetchClause
  infer_instance

theorem limit?.keeps {a : Lookahead} {limit : Parser Rule Unit} (h : limit? nested a = some limit) :
    Keeps c mark limit := by
  unfold limit? at h
  split at h
  all_goals cases h
  all_goals infer_instance

instance limits.keeps : Keeps c mark (limits nested) := by
  unfold limits
  apply Keeps.of_body
  intro k
  apply Keeps.of_step
  apply Keeps.answer_bind
  intro a
  split
  · rename_i limit hlimit
    have hkeeps : Keeps c k limit := limit?.keeps hlimit
    infer_instance
  · infer_instance

instance orderAndLimit.keeps : Keeps c mark (orderAndLimit nested) := by
  unfold orderAndLimit
  infer_instance

instance selectTail.keeps : Keeps c mark (selectTail nested) := by
  unfold selectTail
  infer_instance

instance relation.keeps : Keeps c mark relation := by
  unfold relation
  infer_instance

instance functionTable.keeps (n : Nat) : Keeps c mark (functionTable n) := by
  unfold functionTable
  infer_instance

instance derivedTable.keeps : Keeps c mark derivedTable := by
  unfold derivedTable
  infer_instance

instance subqueryTable.keeps : Keeps c mark (subqueryTable nested) := by
  unfold subqueryTable
  infer_instance

instance joinCondition.keeps : Keeps c mark (joinCondition nested) := by
  unfold joinCondition
  infer_instance

instance crossJoin.keeps : Keeps c mark (crossJoin nested) := by
  unfold crossJoin
  infer_instance

instance innerJoin.keeps : Keeps c mark (innerJoin nested) := by
  unfold innerJoin
  infer_instance

instance outerJoin.keeps : Keeps c mark (outerJoin nested) := by
  unfold outerJoin
  infer_instance

instance naturalJoin.keeps : Keeps c mark (naturalJoin nested) := by
  unfold naturalJoin
  infer_instance

theorem join?.keeps {a : Lookahead} {join : Parser Rule Unit} (h : join? nested a = some join) :
    Keeps c mark join := by
  unfold join? at h
  split at h
  all_goals cases h
  all_goals infer_instance

instance joins.keeps : Keeps c mark (joins nested) := by
  unfold joins
  apply Keeps.of_step
  apply Keeps.answer_bind
  intro a
  split
  · rename_i join hjoin
    have hkeeps : Keeps c mark join := join?.keeps hjoin
    infer_instance
  · infer_instance

instance tableReference.keeps : Keeps c mark (tableReference nested) := by
  unfold tableReference
  infer_instance

instance fromList.keeps : Keeps c mark (fromList nested) := by
  unfold fromList
  infer_instance

instance tablesClause.keeps (rule : Rule) : Keeps c mark (tablesClause nested rule) := by
  unfold tablesClause
  infer_instance

instance joinedTable.keeps : Keeps c mark (joinedTable nested) := by
  unfold joinedTable
  infer_instance

instance source.keeps : Keeps c mark (source nested) := by
  unfold source
  apply Keeps.ahead_bind
  intro a
  dsimp only
  repeat' split
  all_goals infer_instance

/-! ## Queries -/

instance optionalLabel.keeps : Keeps c mark optionalLabel := by
  unfold optionalLabel
  infer_instance

instance target.keeps : Keeps c mark (target nested) := by
  unfold target
  infer_instance

instance targets.keeps : Keeps c mark (targets nested) := by
  unfold targets
  infer_instance

instance simpleSelect.keeps (withTail : Bool) : Keeps c mark (simpleSelect nested withTail) := by
  unfold simpleSelect
  infer_instance

instance setOperator.keeps : Keeps c mark setOperator := by
  unfold setOperator
  infer_instance

instance setOperand.keeps : Keeps c mark (setOperand nested) := by
  unfold setOperand
  infer_instance

instance intersections.keeps (checkpoint : Nat) :
    Keeps c checkpoint (intersections nested checkpoint) := by
  unfold intersections
  infer_instance

/-- What becomes of the first operand of a set operation may be built around it. -/
instance setTerm.keeps (mixed : Bool) : Keeps c mark (setTerm nested mixed) := by
  unfold setTerm
  infer_instance

instance setOperation.keeps : Keeps c mark (setOperation nested) := by
  unfold setOperation
  infer_instance

instance queryGroup.keeps : Keeps c mark (queryGroup nested) := by
  unfold queryGroup
  infer_instance

instance query.keeps : Keeps c mark (query nested) := by
  unfold query
  infer_instance

/-! ## Changes -/

instance changedColumn.keeps : Keeps c mark changedColumn := by
  unfold changedColumn
  infer_instance

instance changedColumns.keeps : Keeps c mark changedColumns := by
  unfold changedColumns
  infer_instance

instance insertedColumns.keeps : Keeps c mark insertedColumns := by
  unfold insertedColumns
  infer_instance

instance insertTarget.keeps : Keeps c mark insertTarget := by
  unfold insertTarget
  infer_instance

instance overriding.keeps : Keeps c mark overriding := by
  unfold overriding
  infer_instance

instance conflictClause.keeps : Keeps c mark conflictClause := by
  unfold conflictClause
  infer_instance

instance expressionOrDefault.keeps : Keeps c mark (expressionOrDefault nested) := by
  unfold expressionOrDefault
  infer_instance

instance valueRow.keeps : Keeps c mark (valueRow nested) := by
  unfold valueRow
  infer_instance

instance valueRows.keeps : Keeps c mark (valueRows nested) := by
  unfold valueRows
  infer_instance

instance insertedRows.keeps : Keeps c mark (insertedRows nested) := by
  unfold insertedRows
  infer_instance

instance insert.keeps : Keeps c mark (insert nested) := by
  unfold insert
  infer_instance

instance assignment.keeps : Keeps c mark (assignment nested) := by
  unfold assignment
  infer_instance

instance update.keeps : Keeps c mark (update nested) := by
  unfold update
  infer_instance

instance delete.keeps : Keeps c mark (delete nested) := by
  unfold delete
  infer_instance

/-! ## Scripts -/

instance tokenRun.keeps (rule : Rule) : Keeps c mark (tokenRun rule) := by
  unfold tokenRun
  infer_instance

instance createDatabase.keeps : Keeps c mark createDatabase := by
  unfold createDatabase
  infer_instance

theorem statement?.keeps {a : Lookahead} {body : Parser Rule Unit}
    (h : statement? nested a = some body) : Keeps c mark body := by
  unfold statement? at h
  split at h
  case h_5 =>
    split at h
    · cases h
      infer_instance
    · split at h
      · cases h
        infer_instance
      · obtain ⟨rule, -, rfl⟩ := Option.map_eq_some_iff.1 h
        infer_instance
  all_goals
    cases h
    infer_instance

instance statement.keeps : Keeps c mark (statement nested) := by
  unfold statement
  apply Keeps.of_body
  intro k
  apply Keeps.answer_bind
  intro a
  split
  · rename_i body hbody
    exact statement?.keeps hbody
  · infer_instance

instance separatedStatement.keeps : Keeps c mark (separatedStatement nested) := by
  unfold separatedStatement
  infer_instance

instance statements.keeps : Keeps c mark (statements nested) := by
  unfold statements
  infer_instance

instance attempt.keeps : KeepsGoals c (attempt nested) where
  keeps goal mark h := by
    cases goal with
    | test test checkpoint least =>
      obtain rfl := h.eq rfl
      exact testedPredicate.keeps test checkpoint least
    | suffix suffix checkpoint least =>
      obtain rfl := h.eq rfl
      exact suffixedOperand.keeps suffix checkpoint least
    | _ =>
      unfold attempt
      infer_instance

instance parser.keeps (depth : Nat) : KeepsGoals c (parser depth) := by
  induction depth with
  | zero => exact ⟨fun _ _ _ => Keeps.tooDeep⟩
  | succ depth ih => exact attempt.keeps

instance script.keeps : Keeps c mark (script nested) := by
  unfold script
  infer_instance

end SqlScript.Postgres
