import SqlScript.Proofs.Postgres.Condition
import SqlScript.Postgres.Source

/-!
Clauses and tables of PostgreSQL in two runs.
-/

namespace SqlScript.Postgres

open SqlScript.Simulation

variable {σ : Simulation Rule} {need : Nat}

theorem lockClause.respects : σ.Respects 1 1 lockClause lockClause := by
  unfold lockClause
  apply Respects.production
  apply Respects.seq Respects.bump
  exact Respects.bumpBalancedUntil_isOneOf _

theorem groupByClause.respects : σ.Respects 1 1 groupByClause groupByClause := by
  unfold groupByClause
  apply Respects.production
  apply Respects.seq Respects.bump
  apply Respects.seq (Respects.expectKeyword _).loose
  exact Respects.bumpBalancedUntil_isOneOf _

theorem windowClause.respects : σ.Respects 1 1 windowClause windowClause := by
  unfold windowClause
  apply Respects.production
  apply Respects.seq Respects.bump
  exact Respects.bumpBalancedUntil_isOneOf _

theorem distinctClause.respects : σ.Respects 1 1 distinctClause distinctClause := by
  unfold distinctClause
  apply Respects.production
  apply Respects.seq Respects.bump
  apply Respects.afterKeyword
  exact Respects.bumpGroup.loose

theorem intoClause.respects : σ.Respects 1 1 intoClause intoClause := by
  unfold intoClause
  apply Respects.production
  apply Respects.seq Respects.bump
  apply Respects.seq Respects.eatIf.discard
  apply Respects.seq (Respects.optionalKeyword _)
  exact qualifiedName.respects.loose

theorem returningClause.respects : σ.Respects 1 1 returningClause returningClause := by
  unfold returningClause
  apply Respects.production
  exact Respects.bump.seq Respects.bumpBalanced

theorem sortOperator.respects :
    σ.Respects 0 0
      (do
        if ← Parser.sees (·.atStatementEnd) then
          Parser.expected "operator"
        Parser.bump : Parser Rule Unit)
      (do
        if ← Parser.sees (·.atStatementEnd) then
          Parser.expected "operator"
        Parser.bump) where
  run s s' hs _ := by
    have hsees := σ.sees hs
    have hend := (steady_kind 0 (fun kind => kind.alike .semicolon || kind.alike .eof) rfl).eq hsees
      (.inl (Nat.zero_le _))
    have hatEnd : ∀ a : Lookahead, a.atStatementEnd =
        ((a.kind 0).alike .semicolon || (a.kind 0).alike .eof) := fun _ => rfl
    rw [Parser.sees_bind, Parser.sees_bind, hatEnd, hatEnd, hend]
    split
    · exact (Outcome.expected _ hs).bind (fun _ _ _ h => h) fun _ _ => .bump
    · rename_i hkind
      apply (Respects.bump.loose) hs
      apply one_le_reach hs
      rintro (heof | hsemi)
      · rw [heof] at hkind
        exact hkind rfl
      · rw [hsemi] at hkind
        exact hkind rfl
  forward _ := .sees_ite ((Parser.Forward.expected _).bind fun _ => .bump) .bump

theorem sortDirection.respects : σ.Respects need 0 sortDirection sortDirection := by
  unfold sortDirection
  apply Respects.eatIf_bind (Respects.pure ()) _ (Nat.zero_le 1)
  apply Respects.afterKeyword
  exact sortOperator.respects

theorem relation.respects : σ.Respects need 1 relation relation := by
  unfold relation
  apply Respects.production
  apply Respects.seq_right (Respects.optionalKeyword _)
  apply Respects.seq qualifiedName.respects
  apply Respects.seq Respects.eatIf.discard
  apply Respects.seq optionalAlias.respects
  apply Respects.eatIf_ite _ (Respects.pure ()) (Nat.zero_le 1)
  apply Respects.seq Respects.expectName.loose
  apply Respects.seq Respects.bumpGroup.loose
  exact Respects.eatIf_ite Respects.bumpGroup.loose (Respects.pure ()) (Nat.zero_le 1)

theorem functionTable.respects (n : Nat) : σ.Respects n 1 (functionTable n) (functionTable n) := by
  unfold functionTable
  apply Respects.production
  apply Respects.seq_right (Respects.bumpN n).loose
  apply Respects.seq Respects.bumpGroup
  apply Respects.seq
  · exact Respects.ifSees_firm (n := 2) (Respects.bumpN 2).loose
  · exact optionalAlias.respects

theorem derivedTable.respects : σ.Respects need 1 derivedTable derivedTable := by
  unfold derivedTable
  apply Respects.production
  apply Respects.seq_right (Respects.optionalKeyword _)
  exact Respects.bumpGroup.seq optionalAlias.respects

namespace Nests

variable {nested nested' : Goal → Parser Rule Unit} (h : Nests σ nested nested')

include h

theorem respects_whereClause : σ.Respects 1 1 (whereClause nested) (whereClause nested') := by
  unfold whereClause
  apply Respects.production
  apply Respects.seq Respects.bump
  apply Respects.sees_ite_firm (n := 2)
  · exact (Respects.bumpN 2).loose.seq name.respects.loose
  · exact h.expression.loose

theorem respects_havingClause : σ.Respects 1 1 (havingClause nested) (havingClause nested') := by
  unfold havingClause
  apply Respects.production
  apply Respects.seq Respects.bump
  exact h.expression.loose

theorem respects_sortItem : σ.Respects 0 1 (sortItem nested) (sortItem nested') := by
  unfold sortItem
  apply Respects.production
  apply Respects.seq h.expression
  apply Respects.seq sortDirection.respects
  exact Respects.ifSees_firm (n := 2) (Respects.bumpN 2).loose

theorem respects_orderByClause : σ.Respects 1 1 (orderByClause nested) (orderByClause nested') := by
  unfold orderByClause
  apply Respects.production
  apply Respects.seq Respects.bump
  apply Respects.seq (Respects.expectKeyword _).loose
  exact (Respects.commaSeparated h.respects_sortItem).loose

theorem respects_limitClause : σ.Respects 1 1 (limitClause nested) (limitClause nested') := by
  unfold limitClause
  apply Respects.production
  apply Respects.seq Respects.bump
  exact Respects.eatIf_bind (Respects.pure ()) h.expression.loose (Nat.zero_le 1)

theorem respects_offsetClause : σ.Respects 1 1 (offsetClause nested) (offsetClause nested') := by
  unfold offsetClause
  apply Respects.production
  apply Respects.seq Respects.bump
  apply Respects.seq h.expression.loose
  exact Respects.optionalOneOf _

theorem respects_fetchClause : σ.Respects 1 1 (fetchClause nested) (fetchClause nested') := by
  unfold fetchClause
  apply Respects.production
  apply Respects.seq Respects.bump
  apply Respects.seq (Respects.expectOneOf _ _).loose
  apply Respects.seq (Respects.ifSees h.expression.loose)
  apply Respects.seq (Respects.expectIf _).loose
  apply Respects.sees_ite_firm (n := 2)
  · exact (Respects.bumpN 2).loose
  · exact (Respects.expectKeyword _).loose

theorem respects_limits : σ.Respects need 0 (limits nested) (limits nested') := by
  unfold limits
  apply Respects.production
  apply Respects.repeatWhile
  constructor
  · intro s s' hs hreach
    have hkeyword := (σ.sees hs).ask (·.keyword? 0) (.inl (Nat.zero_le _))
    have hfirm := Firm.le_reach (n := 1) (q := fun a => (a.keyword? 0).isSome) (σ.sees hs).stop
    rw [Parser.sees_bind, Parser.sees_bind]
    unfold limit?
    rw [hkeyword]
    generalize (σ.small.ahead s.rest).keyword? 0 = word at hfirm
    split
    · exact (Steps.more h.respects_limitClause).run hs (hfirm rfl)
    · exact (Steps.more h.respects_offsetClause).run hs (hfirm rfl)
    · exact (Steps.more h.respects_fetchClause).run hs (hfirm rfl)
    · exact Steps.stop.run hs hreach
  · intro hb
    apply Parser.Forward.answer_bind
    intro a
    cases hclause : limit? nested' a with
    | none => exact .pure false
    | some clause =>
      apply Parser.Forward.bind _ fun _ => .pure true
      unfold limit? at hclause
      split at hclause
      · exact Option.some.inj hclause ▸ h.respects_limitClause.forward hb
      · exact Option.some.inj hclause ▸ h.respects_offsetClause.forward hb
      · exact Option.some.inj hclause ▸ h.respects_fetchClause.forward hb
      · contradiction

theorem respects_orderAndLimit :
    σ.Respects need 0 (orderAndLimit nested) (orderAndLimit nested') := by
  unfold orderAndLimit
  apply Respects.seq
  · exact Respects.ifKeyword _ h.respects_orderByClause.loose
  · exact Respects.ifSees h.respects_limits

theorem respects_selectTail : σ.Respects need 0 (selectTail nested) (selectTail nested') := by
  unfold selectTail
  apply Respects.seq h.respects_orderAndLimit
  exact Respects.ifKeyword _ lockClause.respects.loose

theorem respects_subqueryTable :
    σ.Respects need 1 (subqueryTable nested) (subqueryTable nested') := by
  unfold subqueryTable
  apply Respects.production
  apply Respects.seq_right (Respects.optionalKeyword _)
  exact (Respects.parenthesized h.query).seq optionalAlias.respects

theorem respects_joinCondition :
    σ.Respects need 1 (joinCondition nested) (joinCondition nested') := by
  unfold joinCondition
  apply Respects.sees_ite_firm (n := 1) _ (Respects.expected _)
  apply Respects.production
  apply Respects.eatIf_ite h.expression.loose _ (Nat.le_refl 1)
  apply Respects.seq Respects.bump
  apply Respects.seq (Respects.parenthesized nameList.respects).loose
  exact Respects.afterKeyword _ name.respects.loose

theorem respects_crossJoin : σ.Respects 1 1 (crossJoin nested) (crossJoin nested') := by
  unfold crossJoin
  apply Respects.production
  apply Respects.seq Respects.bump
  exact (Respects.expectKeyword _).loose.seq h.source.loose

theorem respects_innerJoin : σ.Respects need 1 (innerJoin nested) (innerJoin nested') := by
  unfold innerJoin
  apply Respects.production
  apply Respects.seq_right (Respects.optionalKeyword _)
  apply Respects.seq (Respects.expectKeyword _)
  exact h.source.loose.seq h.respects_joinCondition.loose

theorem respects_outerJoin : σ.Respects 1 1 (outerJoin nested) (outerJoin nested') := by
  unfold outerJoin
  apply Respects.production
  apply Respects.seq Respects.bump
  apply Respects.seq (Respects.optionalKeyword _)
  apply Respects.seq (Respects.expectKeyword _).loose
  exact h.source.loose.seq h.respects_joinCondition.loose

theorem respects_naturalJoin : σ.Respects 1 1 (naturalJoin nested) (naturalJoin nested') := by
  unfold naturalJoin
  apply Respects.production
  apply Respects.seq Respects.bump
  have hjoined : σ.Respects 0 0 (do Parser.expectKeyword .JOIN; nested .source)
      (do Parser.expectKeyword .JOIN; nested' .source) :=
    (Respects.expectKeyword _).loose.seq h.source.loose
  apply Respects.eatIf_ite _ _ (Nat.zero_le 1)
  · exact (Respects.optionalKeyword _).seq hjoined
  · exact (Respects.optionalKeyword _).seq hjoined

theorem respects_joins : σ.Respects need 0 (joins nested) (joins nested') := by
  unfold joins
  apply Respects.repeatWhile
  apply Steps.sees_keyword rfl fun _ => rfl
  · intro a hword
    simp only [join?, hword]
  · intro a a' hword
    unfold join?
    rw [hword]
    split
    · exact .some h.respects_crossJoin
    · exact .some h.respects_innerJoin
    · exact .some h.respects_innerJoin
    · exact .some h.respects_outerJoin
    · exact .some h.respects_outerJoin
    · exact .some h.respects_outerJoin
    · exact .some h.respects_naturalJoin
    · exact .none

theorem respects_tableReference :
    σ.Respects 0 1 (tableReference nested) (tableReference nested') := by
  unfold tableReference
  apply Respects.production
  exact h.source.seq h.respects_joins

theorem respects_fromList : σ.Respects need 1 (fromList nested) (fromList nested') := by
  unfold fromList
  apply Respects.production
  exact Respects.commaSeparated h.respects_tableReference

theorem respects_tablesClause (rule : Rule) :
    σ.Respects 1 1 (tablesClause nested rule) (tablesClause nested' rule) := by
  unfold tablesClause
  apply Respects.production
  exact Respects.bump.seq h.respects_fromList.loose

theorem respects_joinedTable : σ.Respects need 1 (joinedTable nested) (joinedTable nested') := by
  unfold joinedTable
  apply Respects.production
  exact (Respects.parenthesized h.respects_fromList).seq optionalAlias.respects

theorem fails_subqueryTable (hlimit : σ.small.limit < σ.large.limit) {s : ParserState Rule}
    (hparens : σ.small.limit <
      leadingParens (s.rest.drop (if (σ.small.ahead s.rest).isKeyword 0 .LATERAL then 1 else 0))) :
    Parser.Fails σ.small σ.excused (subqueryTable nested) s := by
  unfold subqueryTable
  apply Parser.Fails.production
  have hdeep := h.deep.parenthesized
  split at hparens
  · rename_i hlateral
    apply Parser.Fails.after
    · apply Parser.Fails.bind
      apply hdeep hlimit (s.build (·.start .subqueryRef)).advance
      rw [ParserState.rest_advance, ParserState.rest_build, ← List.drop_one]
      exact hparens
    · rw [Parser.optionalKeyword_eq, ParserState.rest_build, if_pos hlateral]
  · rename_i hlateral
    apply Parser.Fails.after
    · apply Parser.Fails.bind
      apply hdeep hlimit (s.build (·.start .subqueryRef))
      exact hparens
    · rw [Parser.optionalKeyword_eq, ParserState.rest_build, if_neg hlateral]

theorem respects_source : σ.Respects 0 1 (Postgres.source nested) (Postgres.source nested') where
  run s s' hs _ := by
    have hsees := σ.sees hs
    have h₀ : Covers (σ.small.ahead s.rest) (σ.large.ahead s'.rest) 0 := .inl (Nat.zero_le _)
    have hfails : σ.small.limit < σ.large.limit → _ → _ := fun hlimit =>
      h.fails_subqueryTable hlimit (s := s)
    have hlateral : (σ.small.ahead s.rest).isKeyword 0 .LATERAL → 1 ≤ reach s.rest :=
      Firm.le_reach (q := (·.isKeyword 0 .LATERAL)) hsees.stop
    have hle : (if (σ.small.ahead s.rest).isKeyword 0 .LATERAL then 1 else 0) ≤ reach s.rest := by
      split
      · exact hlateral ‹_›
      · exact Nat.zero_le _
    unfold Postgres.source
    rw [Parser.ahead_bind, Parser.ahead_bind, hsees.ask (·.isKeyword 0 .LATERAL) h₀,
      hsees.ask (·.isKind 0 .leftParen) h₀]
    generalize (σ.small.ahead s.rest).isKeyword 0 .LATERAL = lateral at hle hfails hlateral
    generalize (if lateral then 1 else 0) = n at hle hfails
    have hn : Covers (σ.small.ahead s.rest) (σ.large.ahead s'.rest) n :=
      .inl (Nat.le_trans hle (reach_le_length _))
    simp only [hsees.ask (fun a => a.isKind n .leftParen && a.isOneOf (n + 1) [.VALUES, .WITH]) hn,
      hsees.ask (argumentsAt? · n) hn]
    obtain heq | ⟨hlimit, hparens, hopens⟩ := hsees.opensSubquery hn [.SELECT]
    · rw [heq]
      split
      · exact h.respects_subqueryTable hs (Nat.zero_le _)
      split
      · exact derivedTable.respects hs (Nat.zero_le _)
      split
      · exact h.respects_joinedTable hs (Nat.zero_le _)
      cases hopened : argumentsAt? (σ.small.ahead s.rest) n with
      | some opened =>
        have hlt := argumentsAt?_lt_reach hsees.stop hle hopened
        exact functionTable.respects opened hs (Nat.le_of_lt hlt)
      | none =>
        simp only
        split
        · exact Respects.bump.seq (Respects.expected _) hs (hlateral ‹_›)
        · exact relation.respects hs (Nat.zero_le _)
    · rw [if_pos hopens]
      exact .of_error (hfails hlimit hparens)
  forward hb := by
    apply Parser.Forward.ahead_bind
    intro a
    apply Parser.Forward.ite (h.respects_subqueryTable.onward hb)
    apply Parser.Forward.ite (derivedTable.respects.onward hb)
    apply Parser.Forward.ite (h.respects_joinedTable.onward hb)
    split
    · exact (functionTable.respects _).forward hb
    · exact .ite (Parser.Forward.bump.bind fun _ => .expected _)
        (relation.respects.onward hb)

end Nests

end SqlScript.Postgres
