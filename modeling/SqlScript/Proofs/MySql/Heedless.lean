import SqlScript.Proofs.Joined.Heedless
import SqlScript.Proofs.MySql.Script

/-!
Statements of MySQL start with a token.
-/

namespace SqlScript.MySql

open SqlScript.Parser

variable {t : Token} {nested : Goal → Parser Rule Unit}

theorem tokenRun.heedless (ht : t.kind.startsRun) (rule : Rule) : Heedless t (tokenRun rule) :=
  (Heedless.bumpBalanced ht).production rule

theorem querySpecification.heedless (withTail : Bool) :
    Heedless t (querySpecification nested withTail) := by
  unfold querySpecification
  apply Heedless.production
  exact (Heedless.expectIf _ _).bind

theorem queryGroup.heedless : Heedless t (queryGroup nested) := by
  unfold queryGroup
  apply Heedless.production
  exact Heedless.parenthesized

section

variable (hgroup : Heedless t (nested .queryGroup))

include hgroup

theorem unionSelect.heedless : Heedless t (unionSelect nested) := by
  unfold unionSelect unionOperand
  apply Heedless.production
  apply Heedless.bind
  exact Heedless.sees_ite hgroup (querySpecification.heedless false)

theorem query.heedless : Heedless t (query nested) := by
  unfold query
  apply Heedless.sees_ite (unionSelect.heedless hgroup)
  apply Heedless.sees_ite
  · apply Heedless.production
    exact hgroup.bind
  · apply Heedless.production
    exact (querySpecification.heedless true).bind

end

theorem parser.heedless_queryGroup (depth : Nat) : Heedless t (parser depth .queryGroup) := by
  cases depth with
  | zero => exact Heedless.tooDeep
  | succ depth => exact queryGroup.heedless

theorem parser.heedless_query (depth : Nat) : Heedless t (parser depth .query) := by
  cases depth with
  | zero => exact Heedless.tooDeep
  | succ depth => exact query.heedless (parser.heedless_queryGroup depth)

theorem insert.heedless : Heedless t (insert nested) := by
  unfold insert
  apply Heedless.production
  exact Heedless.bump.bind

theorem update.heedless : Heedless t (update nested) := by
  unfold update
  apply Heedless.sees_bind
  intro a _
  have hfirst : 0 < skipModifiers [] a 1 := by
    unfold skipModifiers
    omega
  apply Heedless.sees_ite
  · apply Heedless.production
    exact (Heedless.bumpN hfirst).bind
  · apply Heedless.production
    exact (Heedless.bumpN hfirst).bind

theorem delete.heedless : Heedless t (delete nested) := by
  unfold delete
  apply Heedless.sees_bind
  intro a _
  have hfirst : 0 < skipModifiers ["QUICK"] a 1 := by
    unfold skipModifiers
    omega
  apply Heedless.sees_ite
  · apply Heedless.production
    exact (Heedless.bumpN (Nat.succ_pos _)).bind
  · apply Heedless.production
    exact (Heedless.bumpN hfirst).bind

theorem definition.heedless (ht : t.kind.startsRun) : Heedless t definition := by
  unfold definition createDatabase
  apply Heedless.production
  apply Heedless.sees_ite
  · apply Heedless.production
    exact (Heedless.bumpN (by decide)).bind
  · exact Heedless.bumpBalanced ht

theorem description.heedless (ht : t.kind.startsRun) : Heedless t description := by
  unfold description
  apply Heedless.production
  exact Heedless.sees_ite (tokenRun.heedless ht _) (tokenRun.heedless ht _)

section

variable (ht : t.kind.startsRun) (hquery : Heedless t (nested .query))

include ht hquery

theorem manipulation.heedless : Heedless t (manipulation nested) := by
  unfold manipulation
  apply Heedless.production
  apply Heedless.ahead_bind
  intro a _
  split
  · exact insert.heedless
  · exact update.heedless
  · exact delete.heedless
  · exact hquery
  · split
    · exact hquery
    · exact Heedless.bumpBalanced ht

theorem Family.statement_heedless (family : Family) : Heedless t (family.statement nested) := by
  cases family with
  | manipulation => exact manipulation.heedless ht hquery
  | definition => exact definition.heedless ht
  | replication => exact tokenRun.heedless ht _
  | display => exact (tokenRun.heedless ht _).production _
  | administration => exact tokenRun.heedless ht _
  | description => exact description.heedless ht
  | utility => exact tokenRun.heedless ht _
  | transaction => exact tokenRun.heedless ht _
  | prepared => exact tokenRun.heedless ht _

end

theorem statement.heedless (hquery : Heedless t (nested .query)) :
    Heedless t (statement nested) := by
  unfold statement
  apply Heedless.production
  apply Heedless.sees_bind
  intro a ha
  cases hfamily : Family.ofLookahead? a with
  | none => exact Heedless.complain _
  | some family =>
    have hstart : (a.token 0).kind.startsRun :=
      Family.startsRun_of_ofLookahead? (by simp [hfamily])
    rw [ha] at hstart
    exact Family.statement_heedless hstart hquery family

theorem functionCall.heedless : Heedless t functionCall := by
  unfold functionCall
  apply Heedless.production
  apply Heedless.sees_ite
  · exact (Heedless.expectIf _ _).bind
  · exact Heedless.bump.bind

theorem columnName.heedless : Heedless t columnName := by
  unfold columnName dottedName
  apply Heedless.production
  exact (Heedless.expectIf _ _).bind

theorem constant.heedless : Heedless t constant := by
  unfold constant
  apply Heedless.production
  apply Heedless.production
  apply Heedless.ifSees_bind Heedless.bump
  exact Heedless.eatIf_bind Heedless.bump

theorem named.heedless : Heedless t named := by
  unfold named
  apply Heedless.sees_ite (functionCall.heedless.production _)
  exact Heedless.sees_ite (columnName.heedless.production _) (Heedless.complain _)

theorem group.heedless : Heedless t (group nested) := by
  unfold group
  exact Heedless.sees_ite (Heedless.parenthesized.production _) (Heedless.parenthesized.production _)

theorem primary.heedless : Heedless t (primary nested) := by
  have hprefixed : ∀ rule, Heedless t (prefixed nested rule) :=
    fun rule => Heedless.bump.bind.production rule
  unfold primary
  apply Heedless.ahead_bind
  intro a _
  split
  case h_6 | h_7 =>
    split
    · exact constant.heedless
    · exact hprefixed _
  case h_8 | h_9 => exact hprefixed _
  case h_10 =>
    split
    · exact constant.heedless
    · exact named.heedless
  case h_11 =>
    split
    · exact (Heedless.bumpN (by decide)).bind.production _
    · exact Heedless.bump.production _
  case h_12 => exact Heedless.bump.production _
  case h_13 => exact group.heedless
  case h_14 =>
    split
    case h_4 | h_5 => exact hprefixed _
    case h_6 =>
      split
      · exact Heedless.bump.bind.production _
      · exact named.heedless
    case h_7 | h_8 => exact Heedless.bump.bind.production _
    case h_9 => exact named.heedless
    all_goals exact constant.heedless
  case h_15 => exact named.heedless
  all_goals exact constant.heedless

theorem parser.heedless_operand (depth least : Nat) : Heedless t (parser depth (.operand least)) := by
  cases depth with
  | zero => exact Heedless.tooDeep
  | succ depth => exact Heedless.checkpoint_bind fun _ => primary.heedless.bind

theorem parser.heedless_predicate (depth least : Nat) :
    Heedless t (parser depth (.predicate least)) := by
  cases depth with
  | zero => exact Heedless.tooDeep
  | succ depth =>
    apply Heedless.checkpoint_bind
    intro m
    exact ((parser.heedless_operand depth 0).production _).bind

theorem parser.heedless_expression (depth : Nat) : Heedless t (parser depth .expression) := by
  cases depth with
  | zero => exact Heedless.tooDeep
  | succ depth =>
    apply Heedless.checkpoint_bind
    intro m
    apply Heedless.sees_bind
    intro a _
    split
    · exact (Heedless.bump.bind.production _).bind
    · apply Heedless.bind
      apply Heedless.checkpoint_bind
      intro m
      exact (parser.heedless_predicate depth 0).bind

theorem plainElement.heedless (hexpression : Heedless t (nested .expression)) :
    Heedless t (plainElement nested) := by
  unfold plainElement
  apply Heedless.ahead_bind
  intro a _
  split
  · exact functionCall.heedless.bind.production _
  split
  · exact columnName.heedless.bind.production _
  · exact hexpression.bind.production _

end SqlScript.MySql
