import SqlScript.Postgres.Change
import SqlScript.Proofs.Postgres.Query

/-!
Statements of PostgreSQL, those that change rows first, in two runs that may nest to different depths.
-/

namespace SqlScript.Postgres

open SqlScript.Simulation

variable {σ : Simulation Rule} {need : Nat}

theorem changedColumn.respects : σ.Respects need 1 changedColumn changedColumn := by
  unfold changedColumn
  apply Respects.production
  apply Respects.seq Respects.expectName
  apply Respects.repeatWhile
  apply Steps.sees_ite (n := 2)
  · apply Steps.more
    exact (Respects.bumpN 2).weaken (Nat.le_refl _) (by omega)
  · exact Steps.sees_ite (n := 1) (Steps.more Respects.bumpGroup) Steps.stop

theorem changedColumns.respects : σ.Respects need 1 changedColumns changedColumns := by
  unfold changedColumns
  exact Respects.parenthesized (Respects.commaSeparated changedColumn.respects)

theorem insertTarget.respects : σ.Respects need 1 insertTarget insertTarget := by
  unfold insertTarget
  apply Respects.production
  apply Respects.seq qualifiedName.respects
  exact Respects.afterKeyword _ name.respects.loose

theorem overriding.respects : σ.Respects need 0 overriding overriding := by
  unfold overriding
  apply Respects.ifSees
  exact (Respects.bumpN_before 2 (Respects.expectKeyword _)).loose

theorem conflictClause.respects : σ.Respects 2 1 conflictClause conflictClause := by
  unfold conflictClause
  apply Respects.production
  apply Respects.seq
  · exact (Respects.bumpN 2).weaken (Nat.le_refl _) (by omega)
  · apply Respects.bumpBalancedUntil
    exact fun t t' hk => Token.isKeyword_congr hk .RETURNING

namespace Nests

variable {nested nested' : Goal → Parser Rule Unit} (h : Nests σ nested nested')

include h

theorem respects_expressionOrDefault :
    σ.Respects 0 1 (expressionOrDefault nested) (expressionOrDefault nested') := by
  unfold expressionOrDefault
  apply Respects.sees_ite_firm (n := 1) _ h.expression
  exact Respects.production _ Respects.bump

theorem respects_valueRow : σ.Respects 0 1 (valueRow nested) (valueRow nested') := by
  unfold valueRow
  apply Respects.production
  exact Respects.parenthesized (Respects.commaSeparated h.respects_expressionOrDefault)

theorem respects_valueRows : σ.Respects 1 1 (valueRows nested) (valueRows nested') := by
  unfold valueRows
  apply Respects.production
  exact Respects.bump.seq (Respects.commaSeparated h.respects_valueRow).loose

theorem respects_insertedRows :
    σ.Respects 0 1 (insertedRows nested) (insertedRows nested') where
  run s s' hs _ := by
    have hsees := σ.sees hs
    have h₀ : Covers (σ.small.ahead s.rest) (σ.large.ahead s'.rest) 0 := .inl (Nat.zero_le _)
    unfold insertedRows
    rw [Parser.ahead_bind, Parser.ahead_bind,
      hsees.ask (fun a => a.isKeyword 0 .DEFAULT && a.isKeyword 1 .VALUES) h₀,
      hsees.ask (·.isKeyword 0 .VALUES) h₀,
      hsees.ask (fun a => a.isKeyword 0 .SELECT || a.isKind 0 .leftParen) h₀]
    split
    · rename_i hdefault
      have hreach := Firm.le_reach (n := 2)
        (q := fun a => a.isKeyword 0 .DEFAULT && a.isKeyword 1 .VALUES) hsees.stop hdefault
      apply Respects.production _ _ hs hreach
      exact (Respects.bumpN 2).weaken (Nat.le_refl _) (by omega)
    split
    · exact h.respects_valueRows hs (Firm.le_reach (q := (·.isKeyword 0 .VALUES)) hsees.stop ‹_›)
    split
    · exact h.query hs (Nat.zero_le _)
    · exact .expected _ hs
  forward hb := by
    apply Parser.Forward.ahead_bind
    intro a
    apply Parser.Forward.ite (.production _ (.bumpN 2))
    apply Parser.Forward.ite (h.respects_valueRows.forward hb)
    exact .ite (h.query.forward hb) (.expected _)

theorem deep_insertedRows : σ.Deep (σ.small.limit + 1) (insertedRows nested) := by
  intro hlimit s hs
  have hparen : (σ.small.ahead s.rest).isKind 0 .leftParen := isKind_of_leadingParens (by omega)
  have hkind := TokenKind.eq_leftParen_of_alike hparen
  unfold insertedRows Parser.Fails
  rw [Parser.ahead_bind, Lookahead.isKeyword_of_leftParen hkind,
    Lookahead.isKeyword_of_leftParen hkind, Lookahead.isKeyword_of_leftParen hkind, hparen]
  exact h.deep hlimit s (Nat.le_of_succ_le hs)

theorem respects_insert : σ.Respects 1 1 (insert nested) (insert nested') := by
  unfold insert
  apply Respects.production
  apply Respects.seq Respects.bump
  apply Respects.seq (Respects.expectKeyword _).loose
  apply Respects.seq insertTarget.respects.loose
  apply Respects.unlessSubquery_bind
  · apply Respects.production
    exact changedColumns.respects.loose
  · apply Respects.seq overriding.respects
    apply Respects.seq h.respects_insertedRows.loose
    apply Respects.seq (Respects.ifSees_firm (n := 2) conflictClause.respects.loose)
    exact Respects.ifKeyword _ returningClause.respects.loose
  · apply Deep.ifSees_bind
    · intro a hkind
      exact Lookahead.isWord_of_leftParen hkind _
    · exact h.deep_insertedRows.bind

theorem respects_assignment : σ.Respects 0 1 (assignment nested) (assignment nested') := by
  unfold assignment
  apply Respects.sees_ite
  · apply Respects.production
    apply Respects.seq changedColumns.respects
    exact (Respects.expect _).loose.seq h.expression.loose
  · apply Respects.production
    apply Respects.seq changedColumn.respects
    exact (Respects.expect _).loose.seq h.respects_expressionOrDefault.loose

theorem respects_update : σ.Respects 1 1 (update nested) (update nested') := by
  unfold update
  apply Respects.production
  apply Respects.seq Respects.bump
  apply Respects.seq relation.respects.loose
  apply Respects.seq (Respects.expectKeyword _).loose
  apply Respects.seq (Respects.commaSeparated h.respects_assignment).loose
  apply Respects.seq (Respects.ifKeyword _ (h.respects_tablesClause _).loose)
  apply Respects.seq (Respects.ifKeyword _ h.respects_whereClause.loose)
  exact Respects.ifKeyword _ returningClause.respects.loose

theorem respects_delete : σ.Respects 1 1 (delete nested) (delete nested') := by
  unfold delete
  apply Respects.production
  apply Respects.seq Respects.bump
  apply Respects.seq (Respects.expectKeyword _).loose
  apply Respects.seq relation.respects.loose
  apply Respects.seq (Respects.ifKeyword _ (h.respects_tablesClause _).loose)
  apply Respects.seq (Respects.ifKeyword _ h.respects_whereClause.loose)
  exact Respects.ifKeyword _ returningClause.respects.loose

end Nests

theorem tokenRun.starts (rule : Rule) : σ.Starts (tokenRun rule) (tokenRun rule) := by
  unfold tokenRun
  apply Starts.production
  exact Starts.bumpBalanced

theorem createDatabase.respects : σ.Respects 2 1 createDatabase createDatabase := by
  unfold createDatabase
  apply Respects.production
  apply Respects.seq
  · exact (Respects.bumpN 2).weaken (Nat.le_refl _) (by omega)
  apply Respects.seq
  · apply Respects.afterKeyword
    exact (Respects.expectKeyword _).loose.seq (Respects.expectKeyword _).loose
  apply Respects.seq name.respects.loose
  exact Respects.bumpBalanced

namespace Nests

variable {nested nested' : Goal → Parser Rule Unit} (h : Nests σ nested nested')

include h

theorem respects_statement : σ.Respects 0 1 (statement nested) (statement nested') := by
  unfold statement
  apply Respects.production
  have hselect : σ.Respects 0 1 (Parser.production .selectStmt (nested .query))
      (Parser.production .selectStmt (nested' .query)) := Respects.production _ h.query
  constructor
  · intro s s' hs _
    have hsees := σ.sees hs
    have h₀ : Covers (σ.small.ahead s.rest) (σ.large.ahead s'.rest) 0 := .inl (Nat.zero_le _)
    have hreach := Firm.le_reach (n := 1) (q := fun a => (a.keyword? 0).isSome) hsees.stop
    rw [Parser.sees_bind, Parser.sees_bind]
    unfold statement?
    rw [hsees.ask (·.keyword? 0) h₀, hsees.ask (·.isKind 0 .leftParen) h₀,
      hsees.ask (fun a => a.isKeyword 0 .CREATE && a.isKeyword 1 .DATABASE) h₀, hsees.ask run? h₀]
    generalize (σ.small.ahead s.rest).keyword? 0 = word at hreach
    split
    · exact hselect hs (Nat.zero_le _)
    · exact h.respects_insert hs (hreach rfl)
    · exact h.respects_update hs (hreach rfl)
    · exact h.respects_delete hs (hreach rfl)
    · split
      · exact hselect hs (Nat.zero_le _)
      split
      · rename_i hcreate
        exact createDatabase.respects hs (Firm.le_reach (n := 2)
          (q := fun a => a.isKeyword 0 .CREATE && a.isKeyword 1 .DATABASE) hsees.stop hcreate)
      cases hrun : run? (σ.small.ahead s.rest) with
      | none => exact .expected _ hs
      | some rule => exact (tokenRun.starts rule).run hs (startsRun_of_run? (by simp [hrun]))
  · intro hb
    apply Parser.Forward.answer_bind
    intro a
    cases hbody : statement? nested' a with
    | none => exact .expected _
    | some body =>
      unfold statement? at hbody
      split at hbody
      · exact Option.some.inj hbody ▸ hselect.forward hb
      · exact Option.some.inj hbody ▸ h.respects_insert.forward hb
      · exact Option.some.inj hbody ▸ h.respects_update.forward hb
      · exact Option.some.inj hbody ▸ h.respects_delete.forward hb
      · split at hbody
        · exact Option.some.inj hbody ▸ hselect.forward hb
        split at hbody
        · exact Option.some.inj hbody ▸ createDatabase.respects.forward hb
        · obtain ⟨run, -, rfl⟩ := Option.map_eq_some_iff.1 hbody
          exact (tokenRun.starts run).forward hb

end Nests

section

variable {nested : Goal → Parser Rule Unit} {n : Nat} (h : σ.Deep (n + 1) (nested .queryGroup))

include h

theorem deep_setOperation : σ.Deep (n + 1) (setOperation nested) := by
  have hoperand : σ.Deep (n + 1) (setOperand nested) := by
    apply Deep.sees_ite _ h
    intro a hkind
    rw [Lookahead.isKind, hkind]
    rfl
  intro hlimit s hs
  apply Parser.Fails.production
  apply Parser.Fails.sees
  apply Parser.Fails.bind
  apply Parser.Fails.checkpoint
  apply Parser.Fails.bind
  exact hoperand hlimit _ hs

theorem deep_queryGroup : σ.Deep (n + 2) (Postgres.queryGroup nested) := by
  unfold Postgres.queryGroup
  apply Deep.production
  apply Deep.parenthesized
  apply Deep.ite (deep_setOperation h)
  apply Deep.sees_ite
  · intro a hkind
    rw [Lookahead.isKind, hkind]
    rfl
  · exact h.bind

theorem deep_query : σ.Deep (n + 1) (Postgres.query nested) := by
  unfold Postgres.query
  apply Deep.ite (deep_setOperation h)
  apply Deep.sees_ite
  · intro a hkind
    rw [Lookahead.isKind, hkind]
    rfl
  · apply Deep.production
    exact h.bind

end

theorem parser.deep_queryGroup (depth : Nat) : σ.Deep (depth + 1) (parser depth .queryGroup) := by
  induction depth with
  | zero =>
    intro hlimit s _
    exact ⟨_, _, Parser.tooDeep_eq, σ.tooDeep hlimit _⟩
  | succ depth ih => exact Postgres.deep_queryGroup ih

theorem parser.deep_query (depth : Nat) : σ.Deep depth (parser depth .query) := by
  cases depth with
  | zero =>
    intro hlimit s _
    exact ⟨_, _, Parser.tooDeep_eq, σ.tooDeep hlimit _⟩
  | succ depth => exact Postgres.deep_query (parser.deep_queryGroup depth)

/-- By induction on the levels that are left to the first run. -/
theorem parser.nests {extra : Nat} (hlimit : σ.small.limit < σ.large.limit ∨ extra = 0)
    {depth : Nat} (hdepth : depth ≤ σ.small.limit) :
    Nests σ (parser depth) (parser (extra + depth)) := by
  have hdeep : σ.Deep σ.small.limit (parser depth .query) := (parser.deep_query depth).weaken hdepth
  induction depth with
  | zero =>
    have hbottom : ∀ {need take : Nat} {goal goal' : Goal},
        σ.Respects need take (parser 0 goal) (parser (extra + 0) goal') := by
      intro need take goal goal'
      apply Respects.tooDeep_of_limit
      apply hlimit.imp_right
      intro h
      rw [h]
      rfl
    exact {
      query := hbottom
      queryGroup := hbottom
      condition := fun _ => hbottom
      predicate := fun _ => hbottom
      test := fun _ _ _ _ _ => hbottom
      operand := fun _ => hbottom
      suffix := fun _ _ _ _ _ => hbottom
      source := hbottom
      deep := hdeep }
  | succ depth ih =>
    have h := ih (Nat.le_of_succ_le hdepth)
      ((parser.deep_query depth).weaken (Nat.le_of_succ_le hdepth))
    exact {
      query := h.respects_query
      queryGroup := h.respects_queryGroup
      condition := h.respects_condition
      predicate := h.respects_predicate
      test := fun test _ _ hm least => h.respects_testedPredicate test hm least
      operand := h.respects_operand
      suffix := fun suffix _ _ hm least => h.respects_suffixedOperand suffix hm least
      source := h.respects_source
      deep := hdeep }

end SqlScript.Postgres
