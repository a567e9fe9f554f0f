import SqlScript.Proofs.Postgres.Forms.Condition

/-!
The clauses of PostgreSQL statements, and the tables they name, have their shapes.
-/

namespace SqlScript.Postgres

open SqlScript.Parser (Forms Rounds)

variable {c : Setting} {pre : Lookahead → Prop} {h w : Nat}

theorem lockClause_forms :
    Forms c (·.isKeyword 0 .FOR = true) (h + 1) (.one .forLockingClause) lockClause :=
  .production ((Forms.bumpKeyword fun _ ha => ha).seq (.bumpBalancedUntil _))

theorem groupByClause_forms :
    Forms c (·.isKeyword 0 .GROUP = true) (h + 1) (.one .groupClause) groupByClause :=
  .production ((Forms.bumpKeyword fun _ ha => ha).seq
    ((Forms.expectKeyword _).seq (.bumpBalancedUntil _)))

theorem windowClause_forms :
    Forms c (·.isKeyword 0 .WINDOW = true) (h + 1) (.one .windowClause) windowClause :=
  .production ((Forms.bumpKeyword fun _ ha => ha).seq (.bumpBalancedUntil _))

theorem distinctClause_forms :
    Forms c (·.isKeyword 0 .DISTINCT = true) (h + 1) (.one .distinctClause) distinctClause :=
  .production ((Forms.bumpKeyword fun _ ha => ha).seq (.afterKeyword .bumpGroup))

theorem intoClause_forms :
    Forms c (·.isKeyword 0 .INTO = true) (h + 2) (.one .intoClause) intoClause := by
  unfold intoClause
  apply Forms.production
  apply (Forms.bumpKeyword fun _ ha => ha).seq
  apply Forms.seq Forms.eatIf_tokens.discard
  exact (Forms.optionalKeyword _).seq qualifiedName_forms

theorem returningClause_forms :
    Forms c (·.isKeyword 0 .RETURNING = true) (h + 1) (.one .returningClause) returningClause :=
  .production ((Forms.bumpKeyword fun _ ha => ha).seq .bumpBalanced)

instance : Announces startsRowWord (·.isOneOf [.ROW, .ROWS]) :=
  inferInstanceAs (Announces (fun a => a.isOneOf 0 [.ROW, .ROWS]) _)

theorem relation_forms : Forms c pre (h + 4) (.one .relationRef) relation := by
  unfold relation
  apply Forms.production
  apply (Forms.optionalKeyword _).seq
  apply (qualifiedName_forms.up (by omega : h + 1 ≤ h + 3)).seq
  apply Forms.seq Forms.eatIf.discard
  apply optionalAlias_forms.seq
  apply Forms.eatIf_then
  apply Forms.expectName.seq
  exact Forms.bumpGroup.seq (.eatIf_then .bumpGroup)

theorem functionTable_forms (n : Nat) :
    Forms c (fun a => ∀ k < n, (a.kind k).isPlain) (h + 4) (.one .funcTableRef)
      (functionTable n) := by
  unfold functionTable
  apply Forms.production
  apply (Forms.bumpN fun _ ha => ha).seq
  apply Forms.bumpGroup.seq
  refine Forms.seq (.ifSees (.bumpTwo ?_)) optionalAlias_forms
  intro a ha
  obtain ⟨hwith, hword⟩ := (Bool.and_eq_true _ _).mp ha
  exact ⟨Lookahead.isPlain_of_isKeyword hwith, Lookahead.isPlain_of_isWord hword⟩

theorem derivedTable_forms : Forms c pre (h + 4) (.one .derivedTableRef) derivedTable :=
  .production ((Forms.optionalKeyword _).seq (Forms.bumpGroup.seq optionalAlias_forms))

namespace NestedForms

variable {nested : Goal → Parser Rule Unit} (hn : NestedForms c h w nested)

include hn

theorem whereClause_forms :
    Forms c (·.isKeyword 0 .WHERE = true) (h + 2) (.one .whereClause) (whereClause nested) := by
  unfold whereClause
  apply Forms.production
  apply (Forms.bumpKeyword fun _ ha => ha).seq
  apply Forms.sees_or
  · refine (Forms.bumpTwo ?_).seq name_forms
    intro a ha
    obtain ⟨hword, hof⟩ := (Bool.and_eq_true _ _).mp ha.2
    exact ⟨Lookahead.isPlain_of_isWord hword, Lookahead.isPlain_of_isKeyword hof⟩
  · exact hn.expression.anywhere.up (Nat.le_succ h)

theorem havingClause_forms :
    Forms c (·.isKeyword 0 .HAVING = true) (h + 1) (.one .havingClause) (havingClause nested) :=
  .production ((Forms.bumpKeyword fun _ ha => ha).seq hn.expression)

omit hn in
theorem sortDirection_forms : Forms c pre h
    (.oneOf [.ASC, .DESC] ||| .opt (.sequence [.word .USING, unendingToken])) sortDirection := by
  unfold sortDirection
  apply Forms.eatIf_unless
  apply Forms.afterKeyword
  apply Forms.sees_cases
  intro a
  -- Anything that does not end the statement is taken for an operator.
  cases hended : a.atStatementEnd with
  | true => exact .expected_bind _
  | false =>
    apply Forms.bump_opt
    rintro b t ts ⟨-, rfl⟩ hrest
    have hfront : b.token 0 = t := by
      unfold Lookahead.token
      rw [hrest]
      rfl
    unfold Lookahead.atStatementEnd Lookahead.isKind Lookahead.kind at hended
    rw [hfront, Bool.or_eq_false_iff] at hended
    rw [hended.1]
    rfl

theorem sortItem_forms : Forms c pre (h + 1) (.one .sortBy) (sortItem nested) := by
  unfold sortItem
  apply Forms.production
  apply Forms.seq hn.expression.anywhere
  apply Forms.seq sortDirection_forms
  refine .ifSees (.bumpTwo ?_)
  intro a ha
  obtain ⟨hnulls, hword⟩ := (Bool.and_eq_true _ _).mp ha
  refine ⟨Lookahead.isPlain_of_isWord hnulls, ?_⟩
  exact ((Bool.or_eq_true _ _).mp hword).elim Lookahead.isPlain_of_isKeyword
    Lookahead.isPlain_of_isWord

theorem orderByClause_forms :
    Forms c (·.isKeyword 0 .ORDER = true) (h + 2) (.one .sortClause) (orderByClause nested) :=
  .production ((Forms.bumpKeyword fun _ ha => ha).seq
    ((Forms.expectKeyword _).seq (.commaSeparated hn.sortItem_forms)))

theorem limitClause_forms :
    Forms c (·.isKeyword 0 .LIMIT = true) (h + 1) (.one .limitClause) (limitClause nested) :=
  .production ((Forms.bumpKeyword fun _ ha => ha).seq (.eatIf_unless hn.expression))

theorem offsetClause_forms :
    Forms c (·.isKeyword 0 .OFFSET = true) (h + 1) (.one .offsetClause) (offsetClause nested) :=
  .production ((Forms.bumpKeyword fun _ ha => ha).seq (hn.expression.seq (.optionalOneOf _)))

theorem fetchClause_forms :
    Forms c (·.isKeyword 0 .FETCH = true) (h + 1) (.one .fetchClause) (fetchClause nested) := by
  unfold fetchClause
  apply Forms.production
  apply (Forms.bumpKeyword fun _ ha => ha).seq
  apply (Forms.expectOneOf _ _).seq
  apply Forms.seq (.ifSees hn.expression.anywhere)
  apply Forms.seq (.expectIf _)
  refine .sees_or (.bumpTwo ?_) (.expectKeyword _)
  intro a ha
  obtain ⟨hwith, hties⟩ := (Bool.and_eq_true _ _).mp ha.2
  exact ⟨Lookahead.isPlain_of_isKeyword hwith, Lookahead.isPlain_of_isWord hties⟩

theorem limits_forms : Forms c (·.isOneOf 0 [.LIMIT, .OFFSET, .FETCH] = true) (h + 2)
    (.one .selectLimit) (limits nested) := by
  unfold limits
  apply Forms.production
  have hsees : ∀ a : Lookahead, a.isOneOf 0 [.LIMIT, .OFFSET, .FETCH] → (limit? nested a).isSome := by
    intro a hone
    unfold Lookahead.isOneOf Token.isOneOf at hone
    unfold limit? Lookahead.keyword?
    split at hone
    · rename_i word hword
      rw [hword]
      simp only [List.contains_iff_mem, List.mem_cons, List.not_mem_nil, or_false] at hone
      rcases hone with rfl | rfl | rfl <;> rfl
    · contradiction
  refine Forms.repeatWhile_of_first ?_ fun s t more hone hok =>
    Rounds.more_of_sees_some (fun _ => rfl) (hsees _ hone) hok
  apply Rounds.sees_some rfl fun _ => rfl
  intro a limit hlimit
  have hword : ∀ {rule : Rule} {word : Keyword} {p : Parser Rule Unit},
      rule ∈ [.limitClause, .offsetClause, .fetchClause] → a.keyword? 0 = some word →
      Forms c (·.isKeyword 0 word = true) (h + 1) (.one rule) p →
      Forms c (· = a) (h + 1) (.oneIn [.limitClause, .offsetClause, .fetchClause]) p := by
    intro rule word p hrule hfront hp
    apply (hp.weaken _).among hrule (Nat.le_refl _)
    rintro _ rfl
    exact beq_of_eq hfront
  unfold limit? at hlimit
  split at hlimit <;> cases hlimit
  · exact hword (by decide) ‹_› hn.limitClause_forms
  · exact hword (by decide) ‹_› hn.offsetClause_forms
  · exact hword (by decide) ‹_› hn.fetchClause_forms

theorem orderAndLimit_forms : Forms c pre (h + 2)
    (.sequence [.opt (.one .sortClause), .opt (.one .selectLimit)]) (orderAndLimit nested) :=
  Forms.seq (.ifKeyword hn.orderByClause_forms) (.ifSees hn.limits_forms)

theorem selectTail_forms : Forms c pre (h + 2) tailShape (selectTail nested) := by
  apply (hn.orderAndLimit_forms.seq (.ifKeyword lockClause_forms)).sub .assoc (Nat.le_refl _)

theorem subqueryTable_forms :
    Forms c pre (h + 4) (.one .subqueryRef) (subqueryTable nested) := by
  unfold subqueryTable
  apply Forms.production
  apply (Forms.optionalKeyword _).seq
  exact (Forms.parenthesized (hn.query.up (Nat.le_add_right h 3))).seq optionalAlias_forms

theorem joinCondition_forms :
    Forms c pre (h + 3) (.one .joinQual) (joinCondition nested) := by
  unfold joinCondition
  apply Forms.sees_ite _ (.expected _)
  apply Forms.production
  apply Forms.eatIf_cases
  · exact hn.expression.up (Nat.le_add_right h 2)
  · apply (Forms.bumpKeyword fun _ ha => Lookahead.isKeyword_of_isOneOf ha.1.2 ha.2).seq
    apply Forms.seq (.parenthesized nameList_forms)
    exact .afterKeyword name_forms

theorem crossJoin_forms :
    Forms c (·.isKeyword 0 .CROSS = true) (h + 1) (.one .innerJoin) (crossJoin nested) := by
  unfold crossJoin
  apply Forms.production
  apply ((Forms.bump fun _ ha => Lookahead.isPlain_of_isKeyword ha).seq
    ((Forms.expectKeyword _).seq hn.source)).sub _ (Nat.le_refl h)
  exact .append (.refl _) (.append (.refl _) (.append_opt _ _))

theorem innerJoin_forms : Forms c pre (h + 4) (.one .innerJoin) (innerJoin nested) := by
  unfold innerJoin
  apply Forms.production
  apply ((Forms.optionalKeyword _).seq ((Forms.expectKeyword _).seq
    ((hn.source.up (Nat.le_add_right h 3)).seq hn.joinCondition_forms))).sub _ (Nat.le_refl _)
  exact .append (.opt_token _) (.append (.refl _) (.append (.refl _) (.opt _)))

theorem outerJoin_forms : Forms c (·.isOneOf 0 [.LEFT, .RIGHT, .FULL] = true) (h + 4)
    (.one .outerJoin) (outerJoin nested) := by
  unfold outerJoin
  apply Forms.production
  apply (Forms.bump_of (·.isOneOf 0 [.LEFT, .RIGHT, .FULL]) fun _ ha => ha).seq
  apply (Forms.optionalKeyword _).seq
  apply (Forms.expectKeyword _).seq
  exact (hn.source.up (Nat.le_add_right h 3)).seq hn.joinCondition_forms

theorem naturalJoin_forms :
    Forms c (·.isKeyword 0 .NATURAL = true) (h + 1) (.one .naturalJoin) (naturalJoin nested) := by
  have hend : Forms c (fun _ => True) h (.sequence [.word .JOIN, .oneIn items])
      (do
        Parser.expectKeyword .JOIN
        nested .source : Parser Rule Unit) :=
    (Forms.expectKeyword _).seq hn.source
  unfold naturalJoin
  apply Forms.production
  apply (Forms.bumpKeyword fun _ ha => ha).seq
  apply Forms.eatIf_join
  · exact (Forms.optionalKeyword _).seq hend
  · exact (Forms.optionalKeyword _).seq hend

theorem joins_forms : Forms c pre (h + 4) (.many (.oneIn joinForms)) (joins nested) := by
  unfold joins
  apply Forms.repeatWhile
  apply Rounds.sees_some rfl fun _ => rfl
  intro a join hjoin
  have hword : ∀ {rule : Rule} {word : Keyword} {p : Parser Rule Unit}, rule ∈ joinForms →
      a.keyword? 0 = some word → Forms c (·.isKeyword 0 word = true) (h + 4) (.one rule) p →
      Forms c (· = a) (h + 4) (.oneIn joinForms) p := by
    intro rule word p hrule hfront hp
    apply (hp.weaken _).among hrule (Nat.le_refl _)
    rintro _ rfl
    exact beq_of_eq hfront
  have houter : ∀ {word : Keyword}, word ∈ [Keyword.LEFT, .RIGHT, .FULL] →
      Forms c (·.isKeyword 0 word = true) (h + 4) (.one .outerJoin) (outerJoin nested) :=
    fun hword => hn.outerJoin_forms.weaken fun _ ha => Token.isOneOf_of_isKeyword _ ha hword
  unfold join? at hjoin
  split at hjoin <;> cases hjoin
  · exact hword (by decide) ‹_› (hn.crossJoin_forms.up (by omega))
  · exact hn.innerJoin_forms.among (by decide) (Nat.le_refl _)
  · exact hn.innerJoin_forms.among (by decide) (Nat.le_refl _)
  · exact hword (by decide) ‹_› (houter (by decide))
  · exact hword (by decide) ‹_› (houter (by decide))
  · exact hword (by decide) ‹_› (houter (by decide))
  · exact hword (by decide) ‹_› (hn.naturalJoin_forms.up (by omega))

theorem tableReference_forms : Forms c pre (h + 5) (.one .tableRef) (tableReference nested) :=
  .production (((hn.source.up (Nat.le_add_right h 4)).anywhere).seq hn.joins_forms)

theorem fromList_forms : Forms c pre (h + 6) (.one .fromList) (fromList nested) :=
  .production (.commaSeparated hn.tableReference_forms)

theorem tablesClause_forms {rule : Rule} {word : Keyword}
    (hrule : shape rule = .sequence [.word word, .one .fromList]) :
    Forms c (·.isKeyword 0 word = true) (h + 7) (.one rule) (tablesClause nested rule) := by
  unfold tablesClause
  apply Forms.production
  change Forms c _ (h + 6) (shape rule) _
  rw [hrule]
  exact (Forms.bumpKeyword fun _ ha => ha).seq hn.fromList_forms

theorem joinedTable_forms : Forms c pre (h + 7) (.one .joinedTableRef) (joinedTable nested) := by
  unfold joinedTable
  apply Forms.production
  exact (Forms.parenthesized hn.fromList_forms).seq
    (optionalAlias_forms.up (Nat.add_le_add_left (by decide : 3 ≤ 6) h))

theorem source_forms : Forms c pre (h + 7) (.oneIn items) (Postgres.source nested) := by
  unfold Postgres.source
  apply Forms.ahead_bind
  intro a
  dsimp only
  have hlateral : ∀ k < if a.isKeyword 0 .LATERAL = true then 1 else 0, (a.kind k).isPlain := by
    intro k hk
    split at hk
    · obtain rfl : k = 0 := by omega
      exact Lookahead.isPlain_of_isKeyword ‹_›
    · omega
  generalize (if a.isKeyword 0 .LATERAL = true then 1 else 0) = n at hlateral
  split
  · exact hn.subqueryTable_forms.among (by decide) (by omega)
  split
  · exact (derivedTable_forms (h := h)).among (by decide) (by omega)
  split
  · exact hn.joinedTable_forms.among (by decide) (Nat.le_refl _)
  split
  · rename_i opened hopened
    apply (((functionTable_forms (h := h) opened).weaken _).among (by decide) (by omega))
    rintro _ ⟨-, rfl⟩ k hk
    by_cases hlt : k < n
    · exact hlateral k hlt
    · exact isPlain_of_argumentsAt? hopened (Nat.le_of_not_lt hlt) hk
  split
  · exact Forms.anyBump.seq_expected _
  · exact (relation_forms (h := h)).among (by decide) (by omega)

end NestedForms

end SqlScript.Postgres
