import SqlScript.Proofs.MySql.Forms.Condition

/-!
The clauses of MySQL statements, and the tables they name, have their shapes.
-/

namespace SqlScript.MySql

open SqlScript.Parser (Forms Leads Rounds)

variable {c : Setting} {pre : Lookahead → Prop} {h w : Nat}

instance : Announces startsLimitValue fun t =>
    t.kind.alike .integer || t.kind.alike .atVariable || t.kind.alike .question || t.isNamePart :=
  inferInstanceAs (Announces (fun a => a.isKind 0 .integer || a.isKind 0 .atVariable ||
    a.isKind 0 .question || a.isName 0) _)

theorem limitValue_forms : Forms c pre (h + 1) (.one .limitClauseAtom) limitValue := by
  unfold limitValue
  apply Forms.production
  exact (Forms.expectIf _).sub (.token_plainToken _) (Nat.le_refl h)

theorem limitClause_forms :
    Forms c (·.isKeyword 0 .LIMIT = true) (h + 2) (.one .limitClause) limitClause := by
  unfold limitClause
  apply Forms.production
  apply (Forms.bumpKeyword fun _ ha => ha).seq
  apply limitValue_forms.seq
  apply (Forms.eatIf_then limitValue_forms).sub _ (Nat.le_refl _)
  rintro es (rfl | ⟨xs, ys, rfl, hxs, hys⟩)
  · exact .inl rfl
  · exact .inr ⟨xs, ys, rfl, Shape.Within.token_plainToken _ hxs, hys⟩

theorem isOneOf_of_startsLock {a : Lookahead} (h : startsLock a) : a.isOneOf 0 [.FOR, .LOCK] := by
  obtain hfor | hlock := (Bool.or_eq_true _ _).mp h
  · exact Token.isOneOf_of_isKeyword _ hfor (by decide)
  · exact Token.isOneOf_of_isKeyword _ ((Bool.and_eq_true _ _).mp hlock).1 (by decide)

theorem lockClause_forms :
    Forms c (startsLock · = true) (h + 1) (.one .lockClause) lockClause :=
  .production ((Forms.bump_of (·.isOneOf 0 [.FOR, .LOCK]) fun _ => isOneOf_of_startsLock).seq
    (.bumpBalancedUntil _))

theorem intoClause_forms :
    Forms c (·.isKeyword 0 .INTO = true) (h + 1) (.one .selectIntoExpression) intoClause :=
  .production ((Forms.bumpKeyword fun _ ha => ha).seq (.bumpBalancedUntil _))

theorem windowClause_forms :
    Forms c (·.isKeyword 0 .WINDOW = true) (h + 1) (.one .windowClause) windowClause :=
  .production ((Forms.bumpKeyword fun _ ha => ha).seq (.bumpBalancedUntil _))

theorem indexHint_forms :
    Forms c (startsIndexHint · = true) (h + 1) (.one .indexHint) indexHint := by
  have hfirst : Forms c (startsIndexHint · = true) h (.oneOf [.USE, .IGNORE, .FORCE] : Shape Rule)
      Parser.bump :=
    .bump_of (·.isOneOf 0 [.USE, .IGNORE, .FORCE]) fun _ ha => ((Bool.and_eq_true _ _).mp ha).1
  have hmid : Leads c (startsIndexHint · = true) (·.isOneOf 0 [.INDEX, .KEY] = true)
      (Parser.bump : Parser Rule Unit) := by
    apply Leads.bump
    intro a ha
    unfold Lookahead.isOneOf
    rw [Lookahead.token_skip]
    exact ((Bool.and_eq_true _ _).mp ha).2
  have hsecond : Forms c (·.isOneOf 0 [.INDEX, .KEY] = true) h (.oneOf [.INDEX, .KEY] : Shape Rule)
      (Parser.bumpN 1) :=
    .bump_of (·.isOneOf 0 [.INDEX, .KEY]) fun _ ha => ha
  unfold indexHint
  apply Forms.production
  apply ((hfirst.seq_of hmid hsecond).seq _).sub .assoc (Nat.le_refl h)
  apply Forms.seq _ .bumpGroup
  apply Forms.afterKeyword
  -- Behind `FOR` anything is taken.
  exact .eatIf_unless (Forms.anyBump.seq (.expectKeyword _))

theorem partitionGroup_forms : Forms c pre h partitionShape partitionGroup :=
  .afterKeyword .bumpGroup

theorem namedTable_forms : Forms c pre (h + 3) (.one .atomTableItem) namedTable := by
  unfold namedTable
  apply Forms.production
  apply tableName_forms.seq
  apply partitionGroup_forms.seq
  apply optionalAlias_forms.seq
  exact .whileSees indexHint_forms

theorem jsonTable_forms :
    Forms c (·.isWord 0 "JSON_TABLE" = true) (h + 2) (.one .tableJson) jsonTable := by
  apply Forms.production
  apply (Forms.bump_of (·.isWord 0 "JSON_TABLE") fun _ ha => ha).seq
  exact Forms.bumpGroup.seq optionalAlias_forms

namespace NestedForms

variable {nested : Goal → Parser Rule Unit} (hn : NestedForms c h w nested)

include hn

theorem whereCondition_forms : Forms c pre h conditionShape (whereCondition nested) :=
  .afterKeyword hn.expression

theorem havingClause_forms : Forms c (·.isKeyword 0 .HAVING = true) (h + 1) (.one .havingClause)
    (havingClause nested) :=
  .production ((Forms.bumpKeyword fun _ ha => ha).seq hn.expression)

theorem sortItem_forms {rule : Rule} (hrule : shape rule =
      .sequence [.strong conditions 0, .opt (.oneOf [.ASC, .DESC])]) :
    Forms c pre (h + 1) (.one rule) (sortItem nested rule) := by
  unfold sortItem
  apply Forms.production
  change Forms c pre h (shape rule) _
  rw [hrule]
  exact hn.expression.anywhere.seq (.optionalOneOf _)

theorem groupByClause_forms : Forms c (·.isKeyword 0 .GROUP = true) (h + 2) (.one .groupByClause)
    (groupByClause nested) := by
  have hrollup : Forms c (fun a => (a.isKeyword 0 .WITH && a.isWord 1 "ROLLUP") = true) (h + 1)
      (.tokens : Shape Rule) (Parser.bumpN 2) := by
    apply Forms.bumpTwo
    intro a ha
    obtain ⟨hwith, hword⟩ := (Bool.and_eq_true _ _).mp ha
    exact ⟨Lookahead.isPlain_of_isKeyword hwith, Lookahead.isPlain_of_isWord hword⟩
  unfold groupByClause
  apply Forms.production
  apply (Forms.bumpKeyword fun _ ha => ha).seq
  apply (Forms.expectKeyword _).seq
  exact Forms.seq (.commaSeparated (hn.sortItem_forms rfl)) (.ifSees hrollup)

theorem orderByClause_forms : Forms c (·.isKeyword 0 .ORDER = true) (h + 2) (.one .orderByClause)
    (orderByClause nested) := by
  unfold orderByClause
  apply Forms.production
  apply (Forms.bumpKeyword fun _ ha => ha).seq
  exact (Forms.expectKeyword _).seq (.commaSeparated (hn.sortItem_forms rfl))

theorem orderAndLimit_forms : Forms c pre (h + 2)
    (.sequence [.opt (.one .orderByClause), .opt (.one .limitClause)]) (orderAndLimit nested) :=
  Forms.seq (.ifKeyword hn.orderByClause_forms) (.ifKeyword limitClause_forms)

theorem selectTail_forms : Forms c pre (h + 2) tailShape (selectTail nested) :=
  (hn.orderAndLimit_forms.seq (.ifSees lockClause_forms)).sub .assoc (Nat.le_refl _)

theorem subquerySource_forms :
    Forms c pre (h + 3) (.one .subqueryTableItem) (subquerySource nested) := by
  unfold subquerySource
  apply Forms.production
  apply (Forms.optionalKeyword _).seq
  apply (Forms.parenthesized (hn.query.up (Nat.le_add_right h 2))).seq
  apply (Forms.optionalKeyword _).seq
  exact Forms.seq uid_forms (.ifSees (.parenthesized uidList_forms))

theorem joinSpec_forms :
    Forms c (startsJoinSpec · = true) (h + 3) (.one .joinSpec) (joinSpec nested) := by
  unfold joinSpec
  apply Forms.production
  apply Forms.eatIf_cases
  · exact hn.expression.up (Nat.le_add_right h 2)
  · apply (Forms.bumpKeyword fun _ ha => Lookahead.isKeyword_of_isOneOf ha.1 ha.2).seq
    exact .parenthesized uidList_forms

theorem innerJoin_forms : Forms c pre (h + 4) (.one .innerJoin) (innerJoin nested) := by
  unfold innerJoin
  apply Forms.production
  apply (Forms.optionalOneOf _).seq
  apply (Forms.expectKeyword _).seq
  apply (hn.source.up (Nat.le_add_right h 3)).seq
  exact .whileSees hn.joinSpec_forms

theorem straightJoin_forms : Forms c (·.isKeyword 0 .STRAIGHT_JOIN = true) (h + 4)
    (.one .straightJoin) (straightJoin nested) := by
  unfold straightJoin
  apply Forms.production
  apply (Forms.bumpKeyword fun _ ha => ha).seq
  apply (hn.source.up (Nat.le_add_right h 3)).seq
  exact .ifKeyword (hn.joinSpec_forms.weaken fun a ha => Token.isOneOf_of_isKeyword _ ha (by decide))

theorem outerJoin_forms : Forms c (·.isOneOf 0 [.LEFT, .RIGHT] = true) (h + 4) (.one .outerJoin)
    (outerJoin nested) := by
  unfold outerJoin
  apply Forms.production
  apply (Forms.bump_of (·.isOneOf 0 [.LEFT, .RIGHT]) fun _ ha => ha).seq
  apply (Forms.optionalKeyword _).seq
  apply (Forms.expectKeyword _).seq
  apply (hn.source.up (Nat.le_add_right h 3)).seq
  exact .sees_ite (hn.joinSpec_forms.weaken fun _ ha => ha.2) (.expected _)

theorem naturalJoin_forms : Forms c (·.isKeyword 0 .NATURAL = true) (h + 1) (.one .naturalJoin)
    (naturalJoin nested) := by
  have hend : ∀ {pre}, Forms c pre h (.sequence [.word .JOIN, .oneIn items])
      (do
        Parser.expectKeyword .JOIN
        nested .source : Parser Rule Unit) :=
    fun {_} => (Forms.expectKeyword _).seq hn.source
  unfold naturalJoin
  apply Forms.production
  apply (Forms.bumpKeyword fun _ ha => ha).seq
  exact .eatIf_then_join ((Forms.optionalKeyword _).seq hend) hend

theorem joins_forms : Forms c pre (h + 4) (.many (.oneIn joinForms)) (joins nested) := by
  unfold joins
  apply Forms.repeatWhile
  apply Rounds.sees_some rfl fun _ => rfl
  intro a join hjoin
  have hword : ∀ {word : Keyword}, a.keyword? 0 = some word → ∀ b, b = a → b.isKeyword 0 word := by
    rintro word hfront _ rfl
    exact beq_iff_eq.2 hfront
  have houter : ∀ word ∈ [Keyword.LEFT, .RIGHT], a.keyword? 0 = some word →
      Forms c (· = a) (h + 4) (.oneIn joinForms) (outerJoin nested) := by
    intro word hmem hfront
    apply (hn.outerJoin_forms.weaken _).among (by decide) (Nat.le_refl _)
    exact fun b hb => Token.isOneOf_of_isKeyword _ (hword hfront b hb) hmem
  unfold join? at hjoin
  split at hjoin <;> cases hjoin
  · exact hn.innerJoin_forms.among (by decide) (Nat.le_refl _)
  · exact hn.innerJoin_forms.among (by decide) (Nat.le_refl _)
  · exact hn.innerJoin_forms.among (by decide) (Nat.le_refl _)
  · exact (hn.straightJoin_forms.weaken (hword ‹_›)).among (by decide) (Nat.le_refl _)
  · exact houter .LEFT (by decide) ‹_›
  · exact houter .RIGHT (by decide) ‹_›
  · exact (hn.naturalJoin_forms.weaken (hword ‹_›)).among (by decide) (by omega)

theorem tableSource_forms :
    Forms c pre (h + 5) (.oneIn [.tableJson, .tableSourceBase]) (tableSource nested) := by
  unfold tableSource
  apply Forms.sees_ite
  · apply ((jsonTable_forms (h := h)).weaken _).among (by decide) (by omega)
    exact fun _ ha => ((Bool.and_eq_true _ _).mp ha.2).1
  · apply Forms.among (.production _) (by decide) (Nat.le_refl _)
    exact (hn.source.up (Nat.le_add_right h 4)).anywhere.seq hn.joins_forms

theorem tableSources_forms : Forms c pre (h + 6) (.one .tableSources) (tableSources nested) :=
  .production (.commaSeparated hn.tableSource_forms)

theorem source_forms : Forms c pre (h + 7) (.oneIn items) (MySql.source nested) := by
  unfold MySql.source
  apply Forms.sees_ite
  · exact hn.subquerySource_forms.among (by decide) (by omega)
  apply Forms.sees_ite
  · apply Forms.among (.production _) (by decide) (Nat.le_refl _)
    exact .parenthesized hn.tableSources_forms
  · exact (namedTable_forms (h := h)).among (by decide) (by omega)

end NestedForms

end SqlScript.MySql
