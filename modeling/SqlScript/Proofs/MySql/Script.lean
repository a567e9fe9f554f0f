import SqlScript.MySql.Change
import SqlScript.Proofs.MySql.Query

/-!
Statements of MySQL, those that change rows first, in two runs that may nest to different depths.
-/

namespace SqlScript.MySql

open SqlScript.Simulation

variable {σ : Simulation Rule} {need : Nat}

theorem deleteTargets.respects : σ.Respects need 1 deleteTargets deleteTargets := by
  unfold deleteTargets
  apply Respects.commaSeparated
  apply Respects.seq tableName.respects
  exact Respects.ifSees_firm (Respects.bumpN 2).loose

theorem rowAlias.respects : σ.Respects need 0 rowAlias rowAlias := by
  unfold rowAlias
  apply Respects.afterKeyword
  apply Respects.seq uid.respects.loose
  apply Respects.ifSees
  exact Respects.bumpGroup.loose

namespace Nests

variable {nested nested' : Goal → Parser Rule Unit} (h : Nests σ nested nested')

include h

theorem respects_expressionOrDefault :
    σ.Respects 0 1 (expressionOrDefault nested) (expressionOrDefault nested') := by
  unfold expressionOrDefault
  apply Respects.sees_ite_firm (n := 1) _ h.expression
  apply Respects.production
  exact Respects.bump

theorem respects_valueRow : σ.Respects need 0 (valueRow nested) (valueRow nested') := by
  unfold valueRow
  apply Respects.production
  apply Respects.ifSees
  exact (Respects.commaSeparated h.respects_expressionOrDefault).loose

theorem respects_updatedElement :
    σ.Respects 0 1 (updatedElement nested) (updatedElement nested') := by
  unfold updatedElement
  apply Respects.production
  apply Respects.seq columnName.respects
  apply Respects.seq (Respects.expect _).loose
  exact h.respects_expressionOrDefault.loose

theorem respects_updatedElements :
    σ.Respects need 1 (updatedElements nested) (updatedElements nested') := by
  unfold updatedElements
  exact Respects.commaSeparated h.respects_updatedElement

theorem respects_insertedRows :
    σ.Respects need 1 (insertedRows nested) (insertedRows nested') := by
  unfold insertedRows
  apply Respects.production
  apply Respects.eatIf_ite _ _ (Nat.le_refl 1)
  · apply Respects.loose
    apply Respects.commaSeparated
    apply Respects.seq_right (Respects.optionalKeyword _)
    exact Respects.parenthesized h.respects_valueRow
  · apply Respects.sees_ite h.query
    exact Respects.expected _

theorem deep_insertedRows : σ.Deep (σ.small.limit + 1) (insertedRows nested) := by
  unfold insertedRows
  apply Deep.production
  apply Deep.eatIf_bind
  · intro a hkind
    exact Lookahead.isOneOf_of_leftParen hkind _
  · apply Deep.sees_ite
    · intro a hkind
      rw [Lookahead.isKind, hkind]
      exact Bool.or_true _
    · exact h.deep.weaken (Nat.le_succ _)

theorem respects_duplicateKeyUpdate :
    σ.Respects 2 1 (duplicateKeyUpdate nested) (duplicateKeyUpdate nested') := by
  unfold duplicateKeyUpdate
  apply Respects.production
  apply Respects.seq
  · exact (Respects.bumpN 2).weaken (Nat.le_refl _) (by omega)
  apply Respects.seq (Respects.expectKeyword _).loose
  apply Respects.seq (Respects.expectKeyword _).loose
  exact h.respects_updatedElements.loose

theorem respects_insert : σ.Respects 1 1 (insert nested) (insert nested') := by
  unfold insert
  apply Respects.production
  apply Respects.seq Respects.bump
  apply Respects.seq (Respects.whileSees Respects.bump)
  apply Respects.seq (Respects.optionalKeyword _)
  apply Respects.seq tableName.respects.loose
  apply Respects.seq partitionGroup.respects
  have hend : σ.Respects 0 0
      (do
        rowAlias
        Parser.ifSees (fun a => a.isKeyword 0 .ON && a.isWord 1 "DUPLICATE")
          (duplicateKeyUpdate nested))
      (do
        rowAlias
        Parser.ifSees (fun a => a.isKeyword 0 .ON && a.isWord 1 "DUPLICATE")
          (duplicateKeyUpdate nested')) := by
    apply Respects.seq rowAlias.respects
    exact Respects.ifSees_firm h.respects_duplicateKeyUpdate.loose
  apply Respects.unlessSubquery_bind
  · apply Respects.loose
    apply Respects.parenthesized
    apply Respects.ifSees
    exact uidList.respects.loose
  · apply Respects.eatIf_ite _ _ (Nat.zero_le 1)
    · exact h.respects_updatedElements.loose.seq hend
    · exact h.respects_insertedRows.loose.seq hend
  · apply Deep.eatIf_bind
    · intro a hkind
      exact Lookahead.isKeyword_of_leftParen hkind _
    · exact h.deep_insertedRows.bind

theorem respects_assignments : σ.Respects need 1 (assignments nested) (assignments nested') := by
  unfold assignments
  apply Respects.seq (Respects.expectKeyword _)
  apply Respects.seq h.respects_updatedElements.loose
  exact h.respects_whereCondition

theorem respects_update : σ.Respects 1 1 (update nested) (update nested') := by
  unfold update
  apply Respects.sees_extent fun _ => skipModifiers_le_reach []
  intro first
  apply Respects.sees_ite_steady
  · apply Respects.production
    apply Respects.seq_right (Respects.bumpN first).loose
    apply Respects.seq tableName.respects
    apply Respects.seq optionalAlias.respects
    apply Respects.seq h.respects_assignments.loose
    exact h.respects_orderAndLimit
  · apply Respects.production
    apply Respects.seq_right (Respects.bumpN first).loose
    apply Respects.seq h.respects_tableSources
    exact h.respects_assignments.loose

theorem respects_delete : σ.Respects 1 1 (delete nested) (delete nested') := by
  unfold delete
  apply Respects.sees_extent fun _ => skipModifiers_le_reach ["QUICK"]
  intro first
  apply Respects.sees_ite_next
  · apply Respects.production
    apply Respects.seq_right (Respects.bumpN (first + 1)).loose
    apply Respects.seq tableName.respects
    apply Respects.seq optionalAlias.respects
    apply Respects.seq partitionGroup.respects
    apply Respects.seq h.respects_whereCondition
    exact h.respects_orderAndLimit
  · have hend : σ.Respects 0 0
        (do
          tableSources nested
          whereCondition nested)
        (do
          tableSources nested'
          whereCondition nested') :=
      h.respects_tableSources.loose.seq h.respects_whereCondition
    apply Respects.production
    apply Respects.seq_right (Respects.bumpN first).loose
    apply Respects.eatIf_ite _ _ (Nat.le_refl 1)
    · apply Respects.seq deleteTargets.respects.loose
      exact (Respects.expectKeyword _).loose.seq hend
    · apply Respects.seq deleteTargets.respects
      exact (Respects.expectKeyword _).loose.seq hend

end Nests

theorem tokenRun.starts (rule : Rule) : σ.Starts (tokenRun rule) (tokenRun rule) := by
  unfold tokenRun
  apply Starts.production
  exact Starts.bumpBalanced

theorem createDatabase.respects : σ.Respects 2 1 createDatabase createDatabase := by
  unfold createDatabase
  apply Respects.production
  apply Respects.seq
  · exact (Respects.bumpN 2).weaken (Nat.le_refl _) (by omega)
  apply Respects.seq
  · apply Respects.afterKeyword
    exact (Respects.expectKeyword _).loose.seq (Respects.expectKeyword _).loose
  apply Respects.seq uid.respects.loose
  exact Respects.bumpBalanced

theorem definition.starts : σ.Starts definition definition := by
  unfold definition
  apply Starts.production
  exact Starts.sees_ite_firm createDatabase.respects Starts.bumpBalanced

theorem description.starts : σ.Starts description description := by
  unfold description
  apply Starts.production
  exact Starts.sees_ite (tokenRun.starts _) (tokenRun.starts _)

namespace Nests

variable {nested nested' : Goal → Parser Rule Unit} (h : Nests σ nested nested')

include h

theorem starts_manipulation : σ.Starts (manipulation nested) (manipulation nested') := by
  unfold manipulation
  apply Starts.production
  constructor
  · intro s s' hs hstart
    have hsees := σ.sees hs
    have h₀ : Covers (σ.small.ahead s.rest) (σ.large.ahead s'.rest) 0 := .inl (Nat.zero_le _)
    rw [Parser.ahead_bind, Parser.ahead_bind, hsees.ask (·.keyword? 0) h₀,
      hsees.ask (·.isKind 0 .leftParen) h₀]
    generalize (σ.small.ahead s.rest).keyword? 0 = word
    split
    · exact (Starts.of_respects h.respects_insert).run hs hstart
    · exact (Starts.of_respects h.respects_update).run hs hstart
    · exact (Starts.of_respects h.respects_delete).run hs hstart
    · exact h.query hs (Nat.zero_le _)
    · split
      · exact h.query hs (Nat.zero_le _)
      · exact Starts.bumpBalanced.run hs hstart
  · intro hb
    apply Parser.Forward.ahead_bind
    intro a
    split
    · exact h.respects_insert.forward hb
    · exact h.respects_update.forward hb
    · exact h.respects_delete.forward hb
    · exact h.query.forward hb
    · exact .ite (h.query.forward hb) (.bumpBalancedUntil _)

theorem starts_family (family : Family) :
    σ.Starts (family.statement nested) (family.statement nested') := by
  cases family with
  | manipulation => exact h.starts_manipulation
  | definition => exact definition.starts
  | replication => exact tokenRun.starts _
  | display => exact (tokenRun.starts _).production _
  | administration => exact tokenRun.starts _
  | description => exact description.starts
  | utility => exact tokenRun.starts _
  | transaction => exact tokenRun.starts _
  | prepared => exact tokenRun.starts _

theorem respects_statement : σ.Respects 0 1 (statement nested) (statement nested') := by
  unfold statement
  apply Respects.production
  constructor
  · intro s s' hs _
    have hsees := σ.sees hs
    rw [Parser.sees_bind, Parser.sees_bind, hsees.ask Family.ofLookahead? (.inl (Nat.zero_le _))]
    cases hfamily : Family.ofLookahead? (σ.small.ahead s.rest) with
    | none => exact .expected _ hs
    | some family =>
      exact (h.starts_family family).run hs (Family.startsRun_of_ofLookahead? (by simp [hfamily]))
  · intro hb
    apply Parser.Forward.sees_bind
    intro family?
    cases family? with
    | none => exact .expected _
    | some family => exact (h.starts_family family).forward hb

end Nests

section

variable {c : Setting} {s : ParserState Rule}

theorem fails_tooDeep : Parser.Fails c (fun _ => True) (Parser.tooDeep : Parser Rule Unit) s :=
  ⟨_, _, Parser.tooDeep_eq, trivial⟩

theorem fails_expression (hnot : (c.ahead s.rest).isKeyword 0 .NOT = false)
    (hprimary : ∀ nested t, t.rest = s.rest → Parser.Fails c (fun _ => True) (primary nested) t)
    (depth : Nat) : Parser.Fails c (fun _ => True) (parser depth .expression) s := by
  have hoperand : ∀ (depth : Nat) (t : ParserState Rule), t.rest = s.rest →
      Parser.Fails c (fun _ => True) (parser depth (.operand 0)) t := by
    intro depth t ht
    cases depth with
    | zero => exact fails_tooDeep
    | succ depth =>
      apply Parser.Fails.checkpoint
      apply Parser.Fails.bind
      exact hprimary _ t ht
  have hpredicate : ∀ depth : Nat, Parser.Fails c (fun _ => True) (parser depth (.predicate 0)) s := by
    intro depth
    cases depth with
    | zero => exact fails_tooDeep
    | succ depth =>
      apply Parser.Fails.checkpoint
      apply Parser.Fails.bind
      apply Parser.Fails.production
      exact hoperand _ _ rfl
  cases depth with
  | zero => exact fails_tooDeep
  | succ depth =>
    apply Parser.Fails.checkpoint
    apply Parser.Fails.sees
    rw [hnot, if_neg Bool.false_ne_true]
    apply Parser.Fails.bind
    apply Parser.Fails.checkpoint
    apply Parser.Fails.bind
    exact hpredicate _

theorem fails_primary_of_case (hcase : (c.ahead s.rest).isKeyword 0 .CASE)
    (hnone : (c.ahead s.rest).caseExtent? 0 = none) (hreserved : c.dialect.isReserved .CASE)
    (nested : Goal → Parser Rule Unit) : Parser.Fails c (fun _ => True) (primary nested) s := by
  have hnamed : Parser.Fails c (fun _ => True) named s := by
    apply Parser.Fails.sees
    rw [callExtent?_of_case hcase hnone]
    apply Parser.Fails.sees
    rw [isName_of_case hcase hreserved]
    exact ⟨_, _, Parser.complain_eq _, trivial⟩
  unfold primary Parser.Fails
  rw [Parser.ahead_bind, Lookahead.kind_of_isKeyword hcase]
  exact hnamed

theorem caseless (hdialect : c.dialect = .mySql) (hcase : (c.ahead s.rest).isKeyword 0 .CASE)
    (hnone : (c.ahead s.rest).caseExtent? 0 = none) (depth : Nat) :
    Parser.Fails c (fun _ => True) (parser depth .expression) s := by
  apply fails_expression
  · have hkind := Lookahead.kind_of_isKeyword hcase
    unfold Lookahead.kind at hkind
    simp [Lookahead.isKeyword, Token.isKeyword, Token.keyword?, hkind]
  · intro nested t ht
    apply fails_primary_of_case (ht ▸ hcase) (ht ▸ hnone)
    rw [hdialect]
    rfl

end

section

variable {c : Setting} {s : ParserState Rule} (hstop : c.stop.kind = .eof)
  (hdialect : c.dialect = .mySql) (hover : EndsWithOver (c.ahead s.rest))

include hstop hover in
theorem fails_named : Parser.Fails c (fun _ => True) named s := by
  apply Parser.Fails.sees
  rw [if_pos (hover.callExtent?_isSome hstop)]
  apply Parser.Fails.production
  cases hcall : functionCall c (s.build (·.start .functionCallExpressionAtom)) with
  | ok a t => exact absurd hcall (functionCall_ne_ok hstop hover)
  | error f t => exact ⟨f, t, hcall, trivial⟩

include hstop hdialect hover

theorem fails_primary_of_over (nested : Goal → Parser Rule Unit) :
    Parser.Fails c (fun _ => True) (primary nested) s := by
  have hnamed : StartsNamed (c.ahead s.rest) :=
    .of_callExtent? hdialect (hover.callExtent?_isSome hstop)
  unfold Parser.Fails
  rw [hnamed.primary_eq]
  exact fails_named hstop hover

theorem windowless (depth : Nat) :
    Parser.Fails c (fun _ => True) (parser depth .expression) s := by
  apply fails_expression
  · have hnamed : StartsNamed (c.ahead s.rest) :=
      .of_callExtent? hdialect (hover.callExtent?_isSome hstop)
    exact hnamed.not_isKeyword (by decide)
  · intro nested t ht
    exact fails_primary_of_over hstop hdialect (ht ▸ hover) nested

end

section

variable {nested : Goal → Parser Rule Unit} {n : Nat} (h : σ.Deep (n + 1) (nested .queryGroup))

include h

theorem deep_unionSelect : σ.Deep (n + 1) (unionSelect nested) := by
  unfold unionSelect unionOperand
  apply Deep.production
  apply Deep.bind
  apply Deep.sees_ite _ h
  intro a hkind
  rw [Lookahead.isKind, hkind]
  rfl

theorem deep_queryGroup : σ.Deep (n + 2) (MySql.queryGroup nested) := by
  unfold MySql.queryGroup
  apply Deep.production
  apply Deep.parenthesized
  apply Deep.ite (deep_unionSelect h)
  apply Deep.sees_ite _ h
  intro a hkind
  rw [Lookahead.isKind, hkind]
  rfl

theorem deep_query : σ.Deep (n + 1) (MySql.query nested) := by
  unfold MySql.query
  apply Deep.ite (deep_unionSelect h)
  apply Deep.sees_ite
  · intro a hkind
    rw [Lookahead.isKind, hkind]
    rfl
  · apply Deep.production
    exact h.bind

end

theorem parser.deep_queryGroup (depth : Nat) : σ.Deep (depth + 1) (parser depth .queryGroup) := by
  induction depth with
  | zero =>
    intro hlimit s _
    exact ⟨_, _, Parser.tooDeep_eq, σ.tooDeep hlimit _⟩
  | succ depth ih => exact MySql.deep_queryGroup ih

theorem parser.deep_query (depth : Nat) : σ.Deep depth (parser depth .query) := by
  cases depth with
  | zero =>
    intro hlimit s _
    exact ⟨_, _, Parser.tooDeep_eq, σ.tooDeep hlimit _⟩
  | succ depth => exact MySql.deep_query (parser.deep_queryGroup depth)

/-- By induction on the levels that are left to the first run. -/
theorem parser.nests (hdialect : σ.small.dialect = .mySql) {extra : Nat}
    (hlimit : σ.small.limit < σ.large.limit ∨ extra = 0) {depth : Nat}
    (hdepth : depth ≤ σ.small.limit) : Nests σ (parser depth) (parser (extra + depth)) := by
  have hdeep : σ.Deep σ.small.limit (parser depth .query) := (parser.deep_query depth).weaken hdepth
  induction depth with
  | zero =>
    have hbottom : ∀ {need take : Nat} {goal goal' : Goal},
        σ.Respects need take (parser 0 goal) (parser (extra + 0) goal') := by
      intro need take goal goal'
      apply Respects.tooDeep_of_limit
      apply hlimit.imp_right
      intro h
      rw [h]
      rfl
    exact {
      query := hbottom
      queryGroup := hbottom
      condition := fun _ => hbottom
      predicate := fun _ => hbottom
      test := fun _ _ _ _ _ => hbottom
      operand := fun _ => hbottom
      collation := fun _ _ => hbottom
      source := hbottom
      deep := hdeep
      dialect := hdialect
      caseless := fun _ hcase hnone => caseless hdialect hcase hnone 0
      windowless := fun _ _ _ => fails_tooDeep }
  | succ depth ih =>
    have h := ih (Nat.le_of_succ_le hdepth)
      ((parser.deep_query depth).weaken (Nat.le_of_succ_le hdepth))
    exact {
      query := h.respects_query
      queryGroup := h.respects_queryGroup
      condition := h.respects_condition
      predicate := h.respects_predicate
      test := fun test _ _ hm least => h.respects_testedPredicate test hm least
      operand := h.respects_operand
      collation := fun hm least => h.respects_collation hm least
      source := h.respects_source
      deep := hdeep
      dialect := hdialect
      caseless := fun _ hcase hnone => caseless hdialect hcase hnone _
      windowless := fun hstop _ hover => windowless hstop hdialect hover _ }

theorem parser.nests_self (hdialect : σ.small.dialect = .mySql) {depth : Nat}
    (hdepth : depth ≤ σ.small.limit) : Nests σ (parser depth) (parser depth) := by
  have hnests : Nests σ (parser depth) (parser (0 + depth)) := parser.nests hdialect (.inr rfl) hdepth
  rwa [Nat.zero_add] at hnests

end SqlScript.MySql
