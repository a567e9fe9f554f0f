import SqlScript.Proofs.Joined.Heedless
import SqlScript.Proofs.Postgres.Script

/-!
Statements of PostgreSQL start with a token.
-/

namespace SqlScript.Postgres

open SqlScript.Parser

variable {t : Token} {nested : Goal → Parser Rule Unit}

theorem simpleSelect.heedless (withTail : Bool) : Heedless t (simpleSelect nested withTail) := by
  unfold simpleSelect
  apply Heedless.production
  exact (Heedless.expectIf _ _).bind

theorem queryGroup.heedless : Heedless t (queryGroup nested) := by
  unfold queryGroup
  apply Heedless.production
  exact Heedless.parenthesized

section

variable (hgroup : Heedless t (nested .queryGroup))

include hgroup

theorem setOperation.heedless : Heedless t (setOperation nested) := by
  unfold setOperation setTerm setOperand
  apply Heedless.production
  apply Heedless.sees_bind
  intro a _
  apply Heedless.bind
  apply Heedless.checkpoint_bind
  intro m
  apply Heedless.bind
  exact Heedless.sees_ite hgroup (simpleSelect.heedless false)

theorem query.heedless : Heedless t (query nested) := by
  unfold query
  apply Heedless.sees_ite (setOperation.heedless hgroup)
  apply Heedless.sees_ite
  · apply Heedless.production
    exact hgroup.bind
  · apply Heedless.production
    exact (simpleSelect.heedless true).bind

end

theorem parser.heedless_queryGroup (depth : Nat) : Heedless t (parser depth .queryGroup) := by
  cases depth with
  | zero => exact Heedless.tooDeep
  | succ depth => exact queryGroup.heedless

theorem parser.heedless_query (depth : Nat) : Heedless t (parser depth .query) := by
  cases depth with
  | zero => exact Heedless.tooDeep
  | succ depth => exact query.heedless (parser.heedless_queryGroup depth)

theorem insert.heedless : Heedless t (insert nested) := by
  unfold insert
  apply Heedless.production
  exact Heedless.bump.bind

theorem update.heedless : Heedless t (update nested) := by
  unfold update
  apply Heedless.production
  exact Heedless.bump.bind

theorem delete.heedless : Heedless t (delete nested) := by
  unfold delete
  apply Heedless.production
  exact Heedless.bump.bind

theorem createDatabase.heedless : Heedless t createDatabase := by
  unfold createDatabase
  apply Heedless.production
  exact (Heedless.bumpN (by decide)).bind

theorem statement.heedless (hquery : Heedless t (nested .query)) :
    Heedless t (statement nested) := by
  unfold statement
  apply Heedless.production
  apply Heedless.sees_bind
  intro a ha
  unfold statement?
  split
  · rename_i body hbody
    split at hbody
    · cases hbody
      exact hquery.production _
    · cases hbody
      exact insert.heedless
    · cases hbody
      exact update.heedless
    · cases hbody
      exact delete.heedless
    · split at hbody
      · cases hbody
        exact hquery.production _
      split at hbody
      · cases hbody
        exact createDatabase.heedless
      · obtain ⟨rule, hrule, rfl⟩ := Option.map_eq_some_iff.1 hbody
        have hstart : (a.token 0).kind.startsRun := startsRun_of_run? (by simp [hrule])
        rw [ha] at hstart
        exact (Heedless.bumpBalanced hstart).production rule
  · exact Heedless.complain _

end SqlScript.Postgres
