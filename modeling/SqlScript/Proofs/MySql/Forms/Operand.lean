import SqlScript.Proofs.MySql.Lookahead
import SqlScript.Proofs.MySql.Shape

/-!
The names, calls and operands of MySQL have their shapes.
-/

namespace SqlScript.MySql

open SqlScript.Parser (Forms Leads Reforms Ends)

variable {c : Setting} {pre : Lookahead → Prop} {h w a : Nat}

theorem isDotted_of_lt_nameExtent {a : Lookahead} {n k : Nat} (hn : n < k)
    (hk : k < nameExtent a n) : (a.token k).isDotted := by
  have hpart : ∀ m, nameExtent.hasPart a m →
      (a.token m).isDotted ∧ (a.token (m + 1)).isDotted := by
    intro m hm
    obtain ⟨hdot, hname⟩ := (Bool.and_eq_true _ _).mp hm
    exact ⟨(Bool.or_eq_true _ _).mpr (.inr hdot), (Bool.or_eq_true _ _).mpr (.inl hname)⟩
  unfold nameExtent at hk
  split at hk
  · rename_i hfirst
    obtain ⟨hdot, hname⟩ := hpart _ hfirst
    split at hk
    · rename_i hsecond
      obtain ⟨hdot', hname'⟩ := hpart _ hsecond
      obtain rfl | rfl | rfl | rfl : k = n + 1 ∨ k = n + 2 ∨ k = n + 3 ∨ k = n + 4 := by omega
      all_goals assumption
    · obtain rfl | rfl : k = n + 1 ∨ k = n + 2 := by omega
      all_goals assumption
  · omega

theorem dottedName_forms : Forms c pre h .dotted dottedName := by
  rw [dottedName_eq]
  apply Forms.sees_cases
  intro a
  have hname : Leads c (fun b => pre b ∧ b = a)
      (fun b => ∀ k < nameExtent a 0 - 1, (b.token k).isDotted)
      (Parser.expectName : Parser Rule Unit) := by
    apply Leads.expectName
    rintro _ ⟨-, rfl⟩ k hk
    rw [Lookahead.token_skip]
    exact isDotted_of_lt_nameExtent (n := 0) (by omega) (by omega)
  exact Forms.expectName.seq_of hname (.bumpN_of _ fun _ hdotted => hdotted)

theorem tableName_forms : Forms c pre (h + 2) (.one .tableName) tableName :=
  .production (.production dottedName_forms)

theorem columnName_forms : Forms c pre (h + 1) (.one .fullColumnName) columnName :=
  .production dottedName_forms

instance : Announces startsUid (fun t => t.isNamePart || t.kind.alike .string) :=
  inferInstanceAs (Announces (fun a => a.isName 0 || a.isKind 0 .string) _)

theorem uid_forms : Forms c pre (h + 1) (.one .uid) uid :=
  .production (.expectIf _)

theorem uidList_forms : Forms c pre (h + 2) (.one .uidList) uidList :=
  .production (.commaSeparated uid_forms)

theorem optionalAlias_forms : Forms c pre (h + 1) aliasShape optionalAlias :=
  .eatIf_ite uid_forms (.ifSees uid_forms)

theorem overClause_forms :
    Forms c (·.isKeyword 0 .OVER = true) (h + 1) (.one .overClause) overClause := by
  unfold overClause
  apply Forms.production
  apply (Forms.bumpKeyword fun _ ha => ha).seq
  exact .sees_or .bumpGroup .expectName

theorem callArguments_forms : Forms c pre (h + 1) argumentsShape callArguments := by
  have hend : ∀ {pre}, Forms c pre (h + 1)
      (.sequence [.tokenGroup, .opt (.sequence [.plainWord "AGAINST", .tokenGroup]),
        .opt (.one .overClause)])
      (do
        Parser.bumpGroup
        Parser.ifSees (·.isWord 0 "AGAINST") do
          Parser.bump
          Parser.bumpGroup
        Parser.ifKeyword .OVER overClause : Parser Rule Unit) := by
    intro pre
    apply Forms.bumpGroup.seq
    apply Forms.seq (.ifSees _) (.ifKeyword overClause_forms)
    exact (Forms.bump_of (·.isWord 0 "AGAINST") fun _ ha => ha).seq .bumpGroup
  -- Behind the dot anything is taken.
  exact .eatIf_then_join (Forms.anyBump.seq hend) hend

instance : Announces (fun a => (callExtent? a 0).isSome) (·.kind.isPlain) where
  cons {a} hstop h := by
    have hfirst : ∀ {q : Lookahead → Bool} {p : Token → Bool} [Announces q p] [Token.Plain p],
        q a → ∃ t ts, a.rest = t :: ts ∧ t.kind.isPlain := by
      intro q p _ _ hq
      obtain ⟨t, ts, hrest, ht⟩ := Announces.cons hstop hq
      exact ⟨t, ts, hrest, Token.Plain.isPlain ht⟩
    unfold callExtent? at h
    split at h
    · exact hfirst (q := (·.isKeyword 0 .CASE)) ‹_›
    split at h
    · rename_i hbare
      exact hfirst (q := fun a => bareFunctions.any (a.isWord 0)) ((Bool.and_eq_true _ _).mp hbare).1
    split at h
    · exact hfirst (q := fun a => a.isName 0 || a.isOneOf 0 functionKeywords) ‹_›
    · contradiction

theorem functionCall_forms :
    Forms c (fun a => (callExtent? a 0).isSome = true) (h + 2) (.one .functionCall)
      functionCall := by
  have hname : Forms c (fun a => (callExtent? a 0).isSome = true ∧ a.isKeyword 0 .CASE = false)
      (h + 1) (.token fun t => t.kind.isPlain && !t.isKeyword .CASE : Shape Rule) Parser.bump := by
    intro s _ _ hstop _ ha hok
    obtain ⟨t, ts, hrest, ht⟩ := Announces.cons (q := fun a => (callExtent? a 0).isSome) hstop ha.1
    have hcase := ha.2
    unfold Lookahead.isKeyword Lookahead.token at hcase
    rw [hrest] at hcase
    cases hok
    refine ⟨[.token t], .advance hrest, .token ?_⟩
    rw [ht, Bool.true_and, Bool.not_eq_true']
    exact hcase
  unfold functionCall
  apply Forms.production
  exact .sees_or .bumpCase (hname.seq (.ifSees callArguments_forms))

theorem constant_forms :
    Forms c Lookahead.StartsLiteral (h + 2) (.one .constantExpressionAtom) constant :=
  .production (.production .literal)

theorem named_forms : Forms c pre (h + 3) (.oneIn primaries) named := by
  unfold named
  apply Forms.sees_ite
  · apply Forms.among (.production _) (by decide) (Nat.le_refl _)
    exact functionCall_forms.weaken fun _ ha => ha.2
  apply Forms.sees_ite
  · exact .among (.production (columnName_forms (h := h))) (by decide) (by omega)
  · exact .expected _

/--
Parsers for the goals one level deeper: what they form is no higher than `h`, and what they wrap
around a part grows by `w` at most.
-/
structure NestedForms (c : Setting) (h w : Nat) (nested : Goal → Parser Rule Unit) : Prop where
  query : Forms c (fun _ => True) h (.oneIn selects) (nested .query)
  queryGroup : Forms c (fun _ => True) h (.one .queryExpression) (nested .queryGroup)
  condition (k : Nat) : Forms c (fun _ => True) h (.strong conditions k) (nested (.condition k))
  condition_ends (k : Nat) : Ends c (Weaker connective? k) (nested (.condition k))
  predicate (k : Nat) : Forms c (fun _ => True) h (.strong predicates k) (nested (.predicate k))
  test {a : Nat} (ha : h ≤ a) (test : Test) {k : Nat} (hk : k ≤ test.strength) :
    Reforms c (test? · = some test) a (.oneIn predicates) (a + w) (.strong predicates k)
      (fun _ => True) fun m => nested (.test test m k)
  operand (k : Nat) : Forms c (fun _ => True) h (.strong operands k) (nested (.operand k))
  operand_ends (k : Nat) : Ends c (Weaker operandOperator? k) (nested (.operand k))
  collation {a : Nat} (ha : h ≤ a) (k : Nat) :
    Reforms c (·.isKeyword 0 .COLLATE = true) a (.oneIn operands) (a + w) (.strong operands k)
      (Weaker operandOperator? k) fun m => nested (.collation m k)
  source : Forms c (fun _ => True) h (.oneIn items) (nested .source)

namespace NestedForms

variable {nested : Goal → Parser Rule Unit} (hn : NestedForms c h w nested)

include hn

theorem expression : Forms c (fun _ => True) h (.strong conditions 0) (nested .expression) :=
  hn.condition 0

theorem expressionList_forms : Forms c pre h (.commas (.strong conditions 0))
    (Parser.commaSeparated (nested .expression)) :=
  .commaSeparated hn.expression

theorem prefixed_forms {rule : Rule}
    (hrule : shape rule = .sequence [.plainToken, .strong operands signStrength]) :
    Forms c (fun a => (a.kind 0).isPlain) (h + 1) (.one rule) (prefixed nested rule) := by
  unfold prefixed
  apply Forms.production
  change Forms c _ h (shape rule) _
  rw [hrule]
  exact (Forms.bump fun _ ha => ha).seq (hn.operand _)

theorem group_forms : Forms c pre (h + 1) (.oneIn primaries) (group nested) := by
  unfold group
  apply Forms.sees_ite
  · exact .among (.production (.parenthesized hn.query)) (by decide) (Nat.le_refl _)
  · exact .among (.production (.parenthesized hn.expressionList_forms)) (by decide) (Nat.le_refl _)

theorem row_forms :
    Forms c (·.isKeyword 0 .ROW = true) (h + 1) (.one .nestedRowExpressionAtom) (row nested) :=
  .production ((Forms.bumpKeyword fun _ ha => ha).seq (.parenthesized hn.expressionList_forms))

theorem existence_forms :
    Forms c (·.isKeyword 0 .EXISTS = true) (h + 1) (.one .existsExpressionAtom) (existence nested) :=
  .production ((Forms.bumpKeyword fun _ ha => ha).seq (.parenthesized hn.query))

theorem interval_forms :
    Forms c (·.isKeyword 0 .INTERVAL = true) (h + 1) (.one .intervalExpressionAtom)
      (interval nested) :=
  .production ((Forms.bumpKeyword fun _ ha => ha).seq (hn.expression.seq (.expectIf _)))

theorem assignment_forms :
    Forms c (fun a => (a.kind 0).isPlain ∧ (a.kind 1).isPlain) (h + 1)
      (.one .variableAssignExpressionAtom) (assignment nested) :=
  .production ((Forms.bumpTwo fun _ ha => ha).seq (hn.operand 0))

theorem primary_forms : Forms c pre (h + 3) (.oneIn primaries) (primary nested) := by
  unfold primary
  apply Forms.ahead_bind
  intro a
  have hconstant : a.StartsLiteral →
      Forms c (fun b => pre b ∧ b = a) (h + 3) (.oneIn primaries) constant := by
    intro ha
    exact (constant_forms (h := h)).among_seen ha (by decide) (by omega)
  have hprefixed : (a.kind 0).isPlain →
      Forms c (fun b => pre b ∧ b = a) (h + 3) (.oneIn primaries)
        (prefixed nested .unaryExpressionAtom) := by
    intro ha
    exact (hn.prefixed_forms rfl).among_seen ha (by decide) (by omega)
  have hsingle : ∀ {rule}, shape rule = .plainToken → rule ∈ primaries → (a.kind 0).isPlain →
      Forms c (fun b => pre b ∧ b = a) (h + 3) (.oneIn primaries)
        (Parser.production rule Parser.bump) := by
    intro rule hrule hmem ha
    have hbump : Forms c (fun b => pre b ∧ b = a) h (shape rule) Parser.bump := by
      rw [hrule]
      apply Forms.bump
      rintro _ ⟨-, rfl⟩
      exact ha
    exact (Forms.production hbump).among hmem (by omega)
  have hword : ∀ {word : Keyword} {rule : Rule} {p : Parser Rule Unit},
      Forms c (·.isKeyword 0 word = true) (h + 1) (.one rule) p → rule ∈ primaries →
        a.isKeyword 0 word → Forms c (fun b => pre b ∧ b = a) (h + 3) (.oneIn primaries) p := by
    intro word rule p hp hrule ha
    exact hp.among_seen ha hrule (by omega)
  split
  all_goals first
    | exact hconstant (Lookahead.startsLiteral_of_kind ‹_› rfl rfl)
    | exact hprefixed (by rw [‹a.kind 0 = _›]; rfl)
    | exact hsingle rfl (by decide) (by rw [‹a.kind 0 = _›]; rfl)
    | exact hn.group_forms.up (by omega)
    | exact named_forms
    | skip
  -- What begins with a sign, a name, a variable or a keyword depends on more.
  iterate 2
    have hplain : (a.kind 0).isPlain := by
      rw [‹a.kind 0 = _›]
      rfl
    exact .literal_or_prefixed hconstant (hprefixed hplain) hplain
  · split
    · rename_i hk hstring
      refine hconstant ⟨by rw [hk]; rfl, fun _ => ?_⟩
      unfold introducesString at hstring
      rw [hk] at hstring
      exact Lookahead.isPlain_of_isKind ((Bool.and_eq_true _ _).mp hstring).1
    · exact named_forms
  · split
    · rename_i hk hassign
      exact hn.assignment_forms.among_seen
        ⟨by rw [hk]; rfl, Lookahead.isPlain_of_isKind hassign⟩ (by decide) (by omega)
    · exact hsingle rfl (by decide) (by rw [‹a.kind 0 = _›]; rfl)
  · split
    all_goals first
      | exact hconstant (Lookahead.startsLiteral_of_kind ‹_› rfl rfl)
      | exact hprefixed (by rw [‹a.kind 0 = _›]; rfl)
      | exact hword hn.existence_forms (by decide) (Lookahead.isKeyword_of_kind ‹_›)
      | exact hword hn.interval_forms (by decide) (Lookahead.isKeyword_of_kind ‹_›)
      | exact named_forms
      | skip
    · exact (hn.prefixed_forms rfl).among_seen (by rw [‹a.kind 0 = _›]; rfl) (by decide) (by omega)
    · split
      · exact hword hn.row_forms (by decide) (Lookahead.isKeyword_of_kind ‹_›)
      · exact named_forms

theorem infixChain_reforms (ha : h ≤ a) (least : Nat) :
    Reforms c (fun _ => True) a (.oneIn primaries) (a + 30) (.strong operands least)
      (Weaker operandOperator? least) fun m =>
        Parser.infixChain m least (operandOperator? <| ·.kind 0) Parser.bump
          (nested <| .operand ·) :=
  .infixChain (Parser.parsed_of_bump (fun _ => rfl) hn.operand hn.operand_ends)
    operandOperators_shaped ha least

theorem operandTail_reforms (ha : h ≤ a) (least : Nat) :
    Reforms c (fun _ => True) a (.oneIn primaries) (a + 30 + w) (.strong operands least)
      (Weaker operandOperator? least) fun m => operandTail nested m least := by
  apply (hn.infixChain_reforms ha least).seq
  apply Reforms.sees_ite
  · have hcollation := hn.collation (Nat.le_trans ha (Nat.le_add_right a 30)) least
    apply (hcollation.from_sub .strong_oneIn (Nat.le_refl _)).weaken
    exact fun _ hfollows => ((Bool.and_eq_true _ _).mp hfollows.2).1
  · exact (Reforms.pure () fun _ hweaker => hweaker.1).sub (.refl _) (Nat.le_add_right _ w)

theorem collation_reforms (ha : h ≤ a) (least : Nat) :
    Reforms c (·.isKeyword 0 .COLLATE = true) (a + 1) (.oneIn operands) (a + 32 + w)
      (.strong operands least) (Weaker operandOperator? least)
      fun m => MySql.collation nested m least := by
  have hwrap : Reforms c (·.isKeyword 0 .COLLATE = true) (a + 1) (.oneIn operands) (a + 2)
      (.oneIn primaries) (fun _ => True) (fun m => Parser.productionAt m .collateExpressionAtom (do
        Parser.bump
        Parser.expectIf startsUid "collation name")) := by
    have hbody : Forms c (·.isKeyword 0 .COLLATE = true) (a + 1)
        (.word .COLLATE ++ uidShape) (do
          Parser.bump
          Parser.expectIf startsUid "collation name" : Parser Rule Unit) :=
      (Forms.bumpKeyword fun _ ha => ha).seq (.expectIf _)
    apply (Reforms.productionAt hbody (.refl _) (Nat.le_refl _)).sub _ (Nat.le_refl _)
    exact .oneIn (by decide)
  apply hwrap.seq
  exact (hn.operandTail_reforms (Nat.le_add_right_of_le ha) least).sub (.refl _) (by omega)

theorem operand_forms (least : Nat) :
    Forms c pre (h + 33 + w) (.strong operands least) (MySql.operand nested least) :=
  hn.primary_forms.checkpoint_bind (hn.operandTail_reforms (Nat.le_add_right h 3) least)

theorem operand_weaker (least : Nat) :
    Ends c (Weaker operandOperator? least) (MySql.operand nested least) :=
  hn.primary_forms.checkpoint_ends (hn.operandTail_reforms (Nat.le_add_right h 3) least)

end NestedForms

end SqlScript.MySql
