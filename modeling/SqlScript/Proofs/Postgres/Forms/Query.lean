import SqlScript.Proofs.Postgres.Forms.Clause
import SqlScript.Proofs.Postgres.Operation

/-!
PostgreSQL select statements, and the statements that change rows, have their shapes.
-/

namespace SqlScript.Postgres

open SqlScript.Parser (Ends Forms Reforms Rounds)

variable {c : Setting} {pre : Lookahead → Prop} {h w : Nat}

theorem optionalLabel_forms : Forms c pre (h + 1)
    (.sequence [.word .AS, .one .colLabel] ||| .opt (.one .colLabel)) optionalLabel := by
  unfold optionalLabel
  apply Forms.eatIf_ite
  · exact .production (.expectIf _)
  · apply Forms.ifSees
    exact .production (.bump_of (·.isName 0) fun _ ha => ha)

theorem setOperator_forms (question : Lookahead → Bool) {p : Token → Bool}
    [Announces question p] (hp : ∀ t, p t → t.isOneOf setOperators)
    (hpre : ∀ a, pre a → question a = true) :
    Forms c pre h
      (.sequence [.token fun t => t.isOneOf setOperators && p t, .opt (.oneOf [.ALL, .DISTINCT])])
      setOperator := by
  apply ((Forms.bump_of question hpre).sub _ (Nat.le_refl h)).seq (Forms.optionalOneOf _)
  rintro _ ⟨t, rfl, ht⟩
  exact ⟨t, rfl, by simp [hp t ht, ht]⟩

theorem tailShape_nil : tailShape.Matches [] :=
  ⟨[], [], rfl, .inl rfl, [], [], rfl, .inl rfl, .inl rfl⟩

theorem changedColumn_forms : Forms c pre (h + 1) (.one .setTarget) changedColumn := by
  unfold changedColumn
  apply Forms.production
  apply Forms.expectName.seq
  apply Forms.repeatWhile
  apply Rounds.sees_ite bumpPart_forms.left
  exact .sees_ite (Forms.bumpGroup_brackets fun _ ha => ha).right .stop

theorem changedColumns_forms : Forms c pre (h + 1) (.parens (.commas (.one .setTarget)))
    changedColumns :=
  .parenthesized (.commaSeparated changedColumn_forms)

theorem insertedColumns_forms : Forms c pre (h + 2) (Shape.one .insertColumnList).opt
    insertedColumns :=
  .ifSees (.production changedColumns_forms)

theorem insertTarget_forms : Forms c pre (h + 2) (.one .insertTarget) insertTarget :=
  .production (qualifiedName_forms.seq (.afterKeyword name_forms))

/-- The word behind `OVERRIDING` may be any token. -/
theorem overriding_forms : Forms c pre h
    (Shape.sequence [.plainWord "OVERRIDING", .anyToken, .word .VALUE]).opt overriding := by
  have hwords : Forms c (·.isWord 0 "OVERRIDING" = true) h
      (.plainWord "OVERRIDING" ++ .anyToken : Shape Rule) (Parser.bumpN 2) :=
    (Forms.bump_of (·.isWord 0 "OVERRIDING") fun _ ha => ha).seq .anyBump
  unfold overriding
  apply Forms.ifSees
  exact (hwords.seq (.expectKeyword _)).sub .assoc (Nat.le_refl h)

theorem conflictClause_forms :
    Forms c (fun a => (a.isKeyword 0 .ON && a.isWord 1 "CONFLICT") = true) (h + 1)
      (.one .onConflictClause) conflictClause := by
  unfold conflictClause
  apply Forms.production
  apply Forms.seq (.bumpTwo _) (.bumpBalancedUntil _)
  intro a ha
  obtain ⟨hon, hword⟩ := (Bool.and_eq_true _ _).mp ha
  exact ⟨Lookahead.isPlain_of_isKeyword hon, Lookahead.isPlain_of_isWord hword⟩

namespace NestedForms

variable {nested : Goal → Parser Rule Unit} (hn : NestedForms c h w nested)

include hn

-- Queries

theorem target_forms :
    Forms c pre (h + 2) (.oneIn [.targetStar, .targetEl]) (target nested) := by
  unfold target
  apply Forms.sees_ite
  · apply Forms.among (.production _) (by decide) (Nat.le_refl _)
    exact .bump_of (·.isKind 0 .star) fun _ ha => ha.2
  · apply Forms.among (.production _) (by decide) (Nat.le_refl _)
    exact (hn.expression.anywhere.up (Nat.le_succ h)).seq optionalLabel_forms

theorem targets_forms : Forms c pre (h + 3) (.one .targetList) (targets nested) :=
  .production (.commaSeparatedFrom (.eatIf_unless hn.target_forms) hn.target_forms)

theorem simpleSelect_forms (withTail : Bool) :
    Forms c pre (h + 8) (.one .simpleSelectPrimary) (simpleSelect nested withTail) := by
  have htail : Forms c (fun _ => True) (h + 7)
      (.sequence [.opt (.one .sortClause), .opt (.one .selectLimit)])
      (if withTail = true then orderAndLimit nested else Pure.pure ()) := by
    cases withTail with
    | true => exact hn.orderAndLimit_forms.up (by omega)
    | false =>
      apply (Forms.pure ()).sub _ (Nat.le_refl _)
      exact (Shape.Within.opt_nothing _).trans (.append_opt _ _)
  have hend : Forms c (fun _ => True) (h + 7)
      (.sequence [.one .targetList, .opt (.one .intoClause), .opt (.one .fromClause),
        .opt (.one .whereClause), .opt (.one .groupClause), .opt (.one .havingClause),
        .opt (.one .windowClause), .opt (.one .sortClause), .opt (.one .selectLimit)])
      (do
        targets nested
        Parser.ifKeyword .INTO intoClause
        Parser.ifKeyword .FROM (tablesClause nested .fromClause)
        Parser.ifKeyword .WHERE (whereClause nested)
        Parser.ifKeyword .GROUP groupByClause
        Parser.ifKeyword .HAVING (havingClause nested)
        Parser.ifKeyword .WINDOW windowClause
        if withTail = true then orderAndLimit nested else Pure.pure () : Parser Rule Unit) := by
    apply (hn.targets_forms.up (by omega)).seq
    apply Forms.seq (.ifKeyword intoClause_forms)
    apply Forms.seq (.ifKeyword (hn.tablesClause_forms rfl))
    apply Forms.seq (.ifKeyword (hn.whereClause_forms.up (by omega)))
    apply Forms.seq (.ifKeyword groupByClause_forms)
    apply Forms.seq (.ifKeyword (hn.havingClause_forms.up (by omega)))
    exact Forms.seq (.ifKeyword windowClause_forms) htail
  unfold simpleSelect
  apply Forms.production
  apply (Forms.expectKeyword _).seq
  apply Forms.eatIf_unless_join hend
  exact Forms.seq (.ifKeyword distinctClause_forms) hend

theorem setOperand_forms :
    Forms c pre (h + 8) (.oneIn setPrimaries) (setOperand nested) := by
  unfold setOperand
  apply Forms.sees_ite
  · exact hn.queryGroup.anywhere.among (by decide) (by omega)
  · exact (hn.simpleSelect_forms false).among (by decide) (Nat.le_refl _)

omit hn in
theorem setOperationPart_forms {words : List Keyword} {k : Nat} {operand : Parser Rule Unit}
    (hwords : words ⊆ setOperators) (hpre : ∀ a, pre a → a.isOneOf 0 words = true)
    (hoperand : Forms c (fun _ => True) k setTermShape operand) :
    Forms c pre (k + 1) (.node [.setOperationPart] (joinsBy words))
      (Parser.production .setOperationPart do
        setOperator
        operand) := by
  have hsub : ∀ t : Token, t.isOneOf words → t.isOneOf setOperators := by
    intro t ht
    unfold Token.isOneOf at ht ⊢
    cases hword : t.keyword? with
    | none => simp [hword] at ht
    | some word =>
      simp only [hword, List.contains_eq_mem, decide_eq_true_eq] at ht ⊢
      exact hwords ht
  apply Forms.production_node ((setOperator_forms (·.isOneOf 0 words) hsub hpre).seq hoperand)
  · apply Shape.Within.trans .assoc
    apply Shape.Within.append _ (.refl _)
    rintro _ ⟨t, rfl, ht⟩
    exact ⟨t, rfl, ((Bool.and_eq_true _ _).mp ht).1⟩
  · rintro n - ⟨_, zs, hchildren, ⟨_, ys, rfl, ⟨t, rfl, ht⟩, -⟩, -⟩
    unfold joinsBy Tree.Node.tokens
    rw [hchildren]
    exact ((Bool.and_eq_true _ _).mp ht).2

omit hn in
theorem leaves_setOperationPart {k : Nat} {es : List (Tree.Element Rule)} {p : Tree.Node Rule → Bool}
    (hes : Made k (.node [.setOperationPart] p) es) : Tree.leaves es ≠ [] := by
  obtain ⟨n, rfl, hrule, -⟩ := hes.fits
  have hn : n.Formed := hes.formed _ (List.mem_singleton_self _) n rfl
  obtain ⟨t, ys, hchildren, -⟩ := exists_setOperator hn (List.mem_singleton.1 hrule)
  rw [Tree.leaves_node, hchildren]
  exact List.cons_ne_nil _ _

theorem intersections_reforms :
    Reforms c (fun _ => True) (h + 8) (.oneIn setPrimaries) (h + 10) setTermShape
      (·.isKeyword 0 .INTERSECT = false) (intersections nested) := by
  have hpart : Forms c (·.isKeyword 0 .INTERSECT = true) (h + 9)
      (.node [.setOperationPart] (joinsBy [.INTERSECT]))
      (Parser.production .setOperationPart do
        setOperator
        setOperand nested) :=
    setOperationPart_forms (by decide) (fun a ha => (a.token 0).isOneOf_of_isKeyword ha (by decide))
      (hn.setOperand_forms.sub (fun _ => .inl) (Nat.le_refl _))
  have hends := Ends.whileSees hpart fun _ => leaves_setOperationPart
  unfold intersections
  apply Reforms.sees_ite
  · refine (Reforms.productionAt_node (q := intersects) (Forms.whileSees hpart) hends ?_
      (fun _ _ => intersects_of_matches) (Nat.le_succ _)).sub (fun _ => Or.inr) (Nat.le_refl _)
    rintro _ ⟨xs, ys, rfl, hxs, hys⟩
    exact .inl (.inr ⟨xs, ys, rfl, hxs, ys, [], by simp, hys, tailShape_nil⟩)
  · exact (Reforms.pure () fun _ ha => ha.2).sub (fun _ => .inl) (Nat.le_add_right _ 2)

theorem setTerm_forms (mixed : Bool) :
    Forms c pre (h + 10) (if mixed then setTermShape else .oneIn setPrimaries)
      (setTerm nested mixed) := by
  cases mixed with
  | true => exact hn.setOperand_forms.checkpoint_bind hn.intersections_reforms
  | false =>
    have hnone : Reforms c (fun _ => True) (h + 8) (.oneIn setPrimaries) (h + 10)
        (.oneIn setPrimaries) (fun _ => True) fun _ => (Pure.pure () : Parser Rule Unit) :=
      (Reforms.pure () fun _ _ => trivial).sub (.refl _) (Nat.le_add_right _ 2)
    exact hn.setOperand_forms.checkpoint_bind hnone

theorem setTerm_ends : Ends c (·.isKeyword 0 .INTERSECT = false) (setTerm nested true) :=
  hn.setOperand_forms.checkpoint_ends hn.intersections_reforms

theorem setOperation_forms :
    Forms c pre (h + 12) (.one .setOperationSelect) (setOperation nested) := by
  have htail : Forms c (fun _ => True) (h + 11) tailShape (selectTail nested) :=
    hn.selectTail_forms.up (by omega)
  unfold setOperation
  apply Forms.production
  apply Forms.sees_cases
  intro a
  cases hmixed : startsWeakOperation a with
  | true =>
    -- Every operand takes the intersections behind it.
    have hpart : Forms c
        (fun b => b.isKeyword 0 .INTERSECT = false ∧ b.isOneOf 0 setOperators = true) (h + 11)
        (.node [.setOperationPart] (joinsBy [.UNION, .EXCEPT]))
        (Parser.production .setOperationPart do
          setOperator
          setTerm nested true) := by
      apply setOperationPart_forms (by decide) _ (hn.setTerm_forms true)
      rintro b ⟨hstrong, hb⟩
      unfold Lookahead.isKeyword Token.isKeyword at hstrong
      unfold Lookahead.isOneOf Token.isOneOf setOperators at *
      cases hword : (b.token 0).keyword? <;> simp_all
    have hends : Ends c (·.isKeyword 0 .INTERSECT = false) (Parser.production .setOperationPart do
        setOperator
        setTerm nested true) :=
      (Ends.seq (h := h) (Forms.anyBump.seq (Forms.optionalOneOf _)) hn.setTerm_ends).production
    exact (((hn.setTerm_forms true).up (Nat.le_succ _)).seq_ends hn.setTerm_ends
      ((Forms.whileSees_ends hpart hends).seq htail)).left.left
  | false =>
    have hpart : Forms c (·.isOneOf 0 setOperators = true) (h + 11) (.one .setOperationPart)
        (Parser.production .setOperationPart do
          setOperator
          setTerm nested false) :=
      (setOperationPart_forms (List.Subset.refl _) (fun _ hb => hb)
        ((hn.setTerm_forms false).sub (fun _ => .inl) (Nat.le_refl _))).sub
          (.node (fun _ hr => hr) fun _ _ _ => rfl) (Nat.le_refl _)
    apply Forms.seen (((hn.setTerm_forms false).up (Nat.le_succ _)).seq
      ((Forms.whileSees hpart).seq htail))
    rintro es b ⟨-, rfl⟩ ⟨us, hus⟩ hmade
    have hscan : Lookahead.anyAtTop (·.isOneOf [.UNION, .EXCEPT]) 0 (Tree.leaves es ++ us) = false := by
      rw [hus]
      exact hmixed
    obtain hes | hes := operation_of_scan hscan hmade.formed hmade.fits
    · exact .inl (.inr hes)
    · exact .inr hes

theorem queryGroup_forms :
    Forms c pre (h + 13) (.one .selectWithParens) (Postgres.queryGroup nested) := by
  unfold Postgres.queryGroup
  apply Forms.production
  apply Forms.parenthesized
  apply Forms.sees_ite hn.setOperation_forms.left.left
  apply Forms.sees_ite
  · exact ((hn.queryGroup.up (by omega)).anywhere.seq
      (hn.selectTail_forms.up (by omega : h + 2 ≤ h + 12))).right.left
  · exact (((hn.simpleSelect_forms true).up (by omega)).seq (.ifKeyword lockClause_forms)).right

theorem query_forms : Forms c pre (h + 12) (.oneIn selects) (Postgres.query nested) := by
  unfold Postgres.query
  apply Forms.sees_ite
  · exact hn.setOperation_forms.among (by decide) (Nat.le_refl _)
  apply Forms.sees_ite
  · apply Forms.among (.production _) (by decide) (by omega : h + 2 + 1 ≤ h + 12)
    exact (hn.queryGroup.anywhere.up (by omega)).seq hn.selectTail_forms
  · apply Forms.among (.production _) (by decide) (by omega : h + 8 + 1 ≤ h + 12)
    exact (hn.simpleSelect_forms true).seq (.ifKeyword lockClause_forms)

-- Changes

theorem expressionOrDefault_forms :
    Forms c pre (h + 1) (.oneIn assigned) (expressionOrDefault nested) := by
  have hdefault : Forms c (·.isKeyword 0 .DEFAULT = true) (h + 1) (.one Rule.setToDefault)
      (Parser.production Rule.setToDefault Parser.bump) :=
    .production (.bumpKeyword fun _ ha => ha)
  unfold expressionOrDefault
  apply Forms.sees_ite
  · exact (hdefault.weaken fun _ ha => ha.2).among (by decide) (Nat.le_refl _)
  · apply hn.expression.anywhere.sub _ (Nat.le_succ h)
    exact Shape.Within.strong_oneIn.trans (.oneIn (by decide))

theorem valueRow_forms : Forms c pre (h + 2) (.one .valuesRow) (valueRow nested) :=
  .production (.parenthesized (.commaSeparated hn.expressionOrDefault_forms))

theorem valueRows_forms :
    Forms c (·.isKeyword 0 .VALUES = true) (h + 3) (.one .valuesClause) (valueRows nested) :=
  .production ((Forms.bumpKeyword fun _ ha => ha).seq (.commaSeparated hn.valueRow_forms))

theorem insertedRows_forms : Forms c pre (h + 3)
    (.oneIn (.defaultValues :: .valuesClause :: selects)) (insertedRows nested) := by
  unfold insertedRows
  apply Forms.ahead_bind
  intro a
  split
  · rename_i hdefault
    refine .among (.production (h := h) (.bumpTwo ?_)) (by decide) (by omega)
    rintro _ ⟨-, rfl⟩
    obtain ⟨hfirst, hsecond⟩ := (Bool.and_eq_true _ _).mp hdefault
    exact ⟨Lookahead.isPlain_of_isKeyword hfirst, Lookahead.isPlain_of_isKeyword hsecond⟩
  split
  · rename_i hvalues
    exact hn.valueRows_forms.among_seen hvalues (by decide) (Nat.le_refl _)
  split
  · exact hn.query.anywhere.sub (.oneIn (by decide)) (by omega)
  · exact .expected _

theorem insert_forms :
    Forms c (·.isKeyword 0 .INSERT = true) (h + 4) (.one .insertStmt) (insert nested) := by
  unfold insert
  apply Forms.production
  apply (Forms.bumpKeyword fun _ ha => ha).seq
  apply (Forms.expectKeyword _).seq
  apply insertTarget_forms.seq
  apply insertedColumns_forms.seq
  apply overriding_forms.seq
  apply hn.insertedRows_forms.seq
  exact Forms.seq (.ifSees conflictClause_forms) (.ifKeyword returningClause_forms)

theorem assignment_forms :
    Forms c pre (h + 2) (.oneIn [.setClause, .multiSetClause]) (assignment nested) := by
  unfold assignment
  apply Forms.sees_ite
  · apply Forms.among (.production _) (by decide) (Nat.le_refl _)
    exact changedColumns_forms.seq ((Forms.expect _).seq (hn.expression.up (Nat.le_succ h)))
  · apply Forms.among (.production _) (by decide) (Nat.le_refl _)
    exact changedColumn_forms.seq ((Forms.expect _).seq hn.expressionOrDefault_forms)

theorem update_forms :
    Forms c (·.isKeyword 0 .UPDATE = true) (h + 8) (.one .updateStmt) (update nested) := by
  unfold update
  apply Forms.production
  apply (Forms.bumpKeyword fun _ ha => ha).seq
  apply (relation_forms.up (by omega : h + 4 ≤ h + 7)).seq
  apply (Forms.expectKeyword _).seq
  apply Forms.seq (.commaSeparated (hn.assignment_forms.up (by omega)))
  apply Forms.seq (.ifKeyword (hn.tablesClause_forms rfl))
  apply Forms.seq (.ifKeyword (hn.whereClause_forms.up (by omega)))
  exact .ifKeyword returningClause_forms

theorem delete_forms :
    Forms c (·.isKeyword 0 .DELETE = true) (h + 8) (.one .deleteStmt) (delete nested) := by
  unfold delete
  apply Forms.production
  apply (Forms.bumpKeyword fun _ ha => ha).seq
  apply (Forms.expectKeyword _).seq
  apply (relation_forms.up (by omega : h + 4 ≤ h + 7)).seq
  apply Forms.seq (.ifKeyword (hn.tablesClause_forms rfl))
  apply Forms.seq (.ifKeyword (hn.whereClause_forms.up (by omega)))
  exact .ifKeyword returningClause_forms

end NestedForms

end SqlScript.Postgres
