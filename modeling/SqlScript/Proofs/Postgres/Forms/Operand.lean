import SqlScript.Proofs.Postgres.Lookahead
import SqlScript.Proofs.Postgres.Shape

/-!
The names, calls and operands of PostgreSQL have their shapes.
-/

namespace SqlScript.Postgres

open SqlScript.Parser (Forms Leads Reforms Ends)

variable {c : Setting} {pre : Lookahead → Prop} {h w a : Nat}

theorem bumpPart_forms :
    Forms c (startsPart · = true) h (.many (.token Token.isDotted))
      (Parser.bumpN 2 : Parser Rule Unit) := by
  apply Forms.bumpN_of
  intro a ha k hk
  obtain ⟨hdot, hname⟩ := (Bool.and_eq_true _ _).mp ha
  obtain rfl | rfl : k = 0 ∨ k = 1 := by omega
  · exact (Bool.or_eq_true _ _).mpr (.inr hdot)
  · exact (Bool.or_eq_true _ _).mpr (.inl hname)

theorem nameParts_forms : Forms c pre h (.many (.token Token.isDotted)) nameParts :=
  (Forms.whileSees bumpPart_forms).sub (.many_many _) (Nat.le_refl h)

theorem name_forms : Forms c pre (h + 1) (.one .colId) name :=
  .production .expectName

theorem nameList_forms : Forms c pre (h + 2) (.one .nameList) nameList :=
  .production (.commaSeparated name_forms)

theorem qualifiedName_forms : Forms c pre (h + 1) (.one .qualifiedName) qualifiedName :=
  .production (Forms.expectName.seq nameParts_forms)

theorem columnReference_forms : Forms c pre (h + 1) (.one .columnref) columnReference := by
  unfold columnReference
  have hstar : Forms c (fun a => (a.isKind 0 .dot && a.isKind 1 .star) = true) h
      (.sequence [.kind .dot, .kind .star] : Shape Rule) (Parser.bumpN 2) := by
    have hdot : Leads c (fun a => (a.isKind 0 .dot && a.isKind 1 .star) = true)
        (·.isKind 0 .star = true) (Parser.bump : Parser Rule Unit) := by
      apply Leads.bump
      intro a ha
      have hnext : a.isKind 1 .star = true := ((Bool.and_eq_true _ _).mp ha).2
      unfold Lookahead.isKind at hnext ⊢
      rwa [Lookahead.kind_skip]
    exact (Forms.bump_of (fun a => a.isKind 0 .dot && a.isKind 1 .star) fun _ ha => ha).seq_of hdot
      (.bump_of (·.isKind 0 .star) fun _ ha => ha)
  apply Forms.production
  exact Forms.expectName.seq (nameParts_forms.seq (.ifSees hstar))

theorem anyName_forms (what : String) : Forms c pre h .dotted (anyName what) :=
  (Forms.expectIf what).seq nameParts_forms

theorem optionalAlias_forms : Forms c pre (h + 3) (Shape.one .aliasClause).opt optionalAlias := by
  unfold optionalAlias
  apply Forms.ifSees
  apply Forms.production
  apply (Forms.optionalKeyword _).seq
  apply Forms.seq name_forms
  exact .ifSees (.parenthesized nameList_forms)

theorem isPlain_of_startsLongType {a : Lookahead} (h : startsLongType a) :
    (a.kind 0).isPlain ∧ (a.kind 1).isPlain := by
  obtain hdouble | hvarying := (Bool.or_eq_true _ _).mp h
  · obtain ⟨hfirst, hsecond⟩ := (Bool.and_eq_true _ _).mp hdouble
    exact ⟨Lookahead.isPlain_of_isWord hfirst, Lookahead.isPlain_of_isWord hsecond⟩
  · obtain ⟨hfirst, hsecond⟩ := (Bool.and_eq_true _ _).mp hvarying
    refine ⟨?_, Lookahead.isPlain_of_isWord hsecond⟩
    exact ((Bool.or_eq_true _ _).mp hfirst).elim Lookahead.isPlain_of_isWord
      Lookahead.isPlain_of_isWord

theorem typeName_forms : Forms c pre (h + 1) (.one .typename) typeName := by
  unfold typeName
  apply Forms.production
  have hend : Forms c (fun _ => True) h
      (.sequence [.opt .tokenGroup, .opt .tokens, .many .tokenGroup])
      (do
        Parser.ifSees (·.isKind 0 .leftParen) Parser.bumpGroup
        Parser.ifSees (fun a => (a.isKeyword 0 .WITH || a.isWord 0 "WITHOUT") &&
          a.isWord 1 "TIME" && a.isWord 2 "ZONE") (Parser.bumpN 3)
        Parser.whileSees (·.isKind 0 .leftBracket) Parser.bumpGroup : Parser Rule Unit) := by
    apply Forms.seq (.ifSees .bumpGroup)
    refine Forms.seq (.ifSees (.bumpThree ?_)) (.whileSees .bumpGroup)
    intro a ha
    obtain ⟨htime, hzone⟩ := (Bool.and_eq_true _ _).mp ha
    obtain ⟨hwith, htime⟩ := (Bool.and_eq_true _ _).mp htime
    refine ⟨?_, Lookahead.isPlain_of_isWord htime, Lookahead.isPlain_of_isWord hzone⟩
    exact ((Bool.or_eq_true _ _).mp hwith).elim Lookahead.isPlain_of_isKeyword
      Lookahead.isPlain_of_isWord
  apply Forms.sees_join
  · exact (Forms.bumpTwo fun _ ha => isPlain_of_startsLongType ha.2).seq hend
  · exact (anyName_forms _).seq hend

theorem overClause_forms :
    Forms c (·.isKeyword 0 .OVER = true) (h + 1) (.one .overClause) overClause := by
  unfold overClause
  apply Forms.production
  apply (Forms.bumpKeyword fun _ ha => ha).seq
  exact .sees_or .bumpGroup .expectName

theorem isPlain_of_lt_partsExtent {c : Setting} {ts : List Token} {k : Nat}
    (hk : k < partsExtent ts) : ((c.ahead ts).kind k).isPlain := by
  fun_induction partsExtent ts generalizing k with
  | case1 dot part rest hpart ih =>
    obtain ⟨hdot, hname⟩ := (Bool.and_eq_true _ _).mp hpart
    rcases k with _ | _ | k
    · exact Token.Plain.isPlain (p := (·.kind.alike .dot)) hdot
    · exact Token.Plain.isPlain (p := Token.isNamePart) hname
    · exact ih (by omega)
  | case2 => exact absurd hk (Nat.not_lt_zero k)
  | case3 => exact absurd hk (Nat.not_lt_zero k)

theorem isPlain_of_argumentsAt? {a : Lookahead} {n opened k : Nat}
    (h : argumentsAt? a n = some opened) (hn : n ≤ k) (hk : k < opened) : (a.kind k).isPlain := by
  rw [argumentsAt?_eq] at h
  split at h
  · rename_i hname
    cases h
    unfold nameExtent at hk
    obtain rfl | ⟨i, rfl⟩ : k = n ∨ ∃ i, k = n + 1 + i := by
      by_cases heq : k = n
      · exact .inl heq
      · exact .inr ⟨k - (n + 1), by omega⟩
    · have hfirst := ((Bool.and_eq_true _ _).mp hname).1
      exact ((Bool.or_eq_true _ _).mp hfirst).elim Lookahead.isPlain_of_isName
        Lookahead.isPlain_of_isOneOf
    · rw [← Lookahead.kind_skip]
      exact isPlain_of_lt_partsExtent (by omega)
  · contradiction

theorem lt_of_argumentsAt? {a : Lookahead} {n opened : Nat} (h : argumentsAt? a n = some opened) :
    n < opened := by
  rw [argumentsAt?_eq] at h
  split at h
  · cases h
    unfold nameExtent
    omega
  · contradiction

theorem call_forms : Forms c (fun a => (argumentsAt? a 0).isSome = true) (h + 2) (.one .funcExpr)
    call := by
  have hfirst : Leads c (fun a => (argumentsAt? a 0).isSome = true) (partsThenParen · = true)
      (Parser.bump : Parser Rule Unit) :=
    .bump fun _ => partsThenParen_of_argumentsAt?
  have hparts : Forms c (partsThenParen · = true) (h + 1) (.tokens : Shape Rule)
      (Parser.whileSees (·.isKind 0 .dot) (Parser.bumpN 2)) := by
    apply Forms.tokens_while_of
    · apply Forms.bumpTwo
      intro a ha
      have hpos := partsExtent_pos ha.1 ha.2
      have heq := partsExtent_eq_add hpos
      exact ⟨Lookahead.isPlain_of_isKind ha.2,
        isPlain_of_lt_partsExtent (c := a.toSetting) (by omega)⟩
    · apply Leads.bumpN
      exact fun a ha => partsThenParen_drop ha.1 ha.2
  have hname : Forms c (fun a => (argumentsAt? a 0).isSome = true) (h + 1)
      (.plainToken : Shape Rule) Parser.bump := by
    apply Forms.bump
    intro a ha
    obtain ⟨opened, hopened⟩ := Option.isSome_iff_exists.1 ha
    exact isPlain_of_argumentsAt? hopened (Nat.le_refl 0) (lt_of_argumentsAt? hopened)
  unfold call
  apply Forms.production
  apply Forms.right
  apply hname.seq_of hfirst
  apply hparts.seq
  apply Forms.bumpGroup.seq
  refine Forms.seq (.ifSees ((Forms.bumpTwo ?_).seq .bumpGroup)) ?_
  · intro a ha
    obtain ⟨hwithin, hgroup⟩ := (Bool.and_eq_true _ _).mp ha
    exact ⟨Lookahead.isPlain_of_isWord hwithin, Lookahead.isPlain_of_isKeyword hgroup⟩
  refine Forms.seq (.ifSees ((Forms.bump_of (·.isWord 0 "FILTER") ?_).seq .bumpGroup))
    (.ifKeyword overClause_forms)
  exact fun _ ha => ((Bool.and_eq_true _ _).mp ha).1

theorem intervalLiteral_forms :
    Forms c (fun a => (a.kind 0).isPlain ∧ (a.kind 1).isPlain) (h + 1) (.one .aexprConst)
      intervalLiteral := by
  unfold intervalLiteral
  apply Forms.production
  apply Forms.tokens_seq (.bumpTwo fun _ ha => ha)
  intro _
  apply Forms.tokens_while
  apply Forms.bump_tokens
  intro a ha
  obtain hfield | hto := (Bool.or_eq_true _ _).mp ha
  · exact Lookahead.isPlain_of_any_isWord hfield
  · exact Lookahead.isPlain_of_isKeyword ((Bool.and_eq_true _ _).mp hto).1

theorem literal_forms : Forms c Lookahead.StartsLiteral (h + 1) (.one .aexprConst) literal :=
  .production .literal

theorem array_forms :
    Forms c (·.isKeyword 0 .ARRAY = true) (h + 1) (.one .cExprArray) array :=
  .production ((Forms.bumpKeyword fun _ ha => ha).seq .bumpGroup)

theorem named_forms : Forms c pre (h + 2) (.oneIn primaries) named := by
  unfold named
  apply Forms.ahead_bind
  intro a
  split
  · rename_i hbare
    refine .among (.production (Forms.left (.bump ?_))) (by decide) (Nat.le_refl _)
    rintro _ ⟨-, rfl⟩
    have hword := ((Bool.and_eq_true _ _).mp hbare).1
    exact Lookahead.isPlain_of_any_isWord ((Bool.and_eq_true _ _).mp hword).1
  split
  · rename_i hcall
    exact call_forms.among_seen hcall (by decide) (Nat.le_refl _)
  split
  · exact columnReference_forms.among (by decide) (Nat.le_refl _)
  · exact .expected _

def Suffix.Starts (a : Lookahead) : Suffix → Prop
  | typecast => (a.kind 0).isPlain
  | subscript => True
  | field => (a.kind 0).isPlain ∧ (a.kind 1).isPlain
  | collation => a.isKeyword 0 .COLLATE
  | timeZone => (a.kind 0).isPlain ∧ (a.kind 1).isPlain ∧ (a.kind 2).isPlain

theorem starts_of_suffix? {a : Lookahead} {least : Nat} {suffix : Suffix}
    (h : suffix? least a = some suffix) : suffix.Starts a := by
  unfold suffix? at h
  unfold Suffix.Starts
  split at h
  · rename_i hk
    cases h
    rw [hk]
    rfl
  · cases h
    trivial
  · rename_i hk
    split at h
    · rename_i hnext
      cases h
      refine ⟨by rw [hk]; rfl, ?_⟩
      exact ((Bool.or_eq_true _ _).mp hnext).elim Lookahead.isPlain_of_isNamePart
        Lookahead.isPlain_of_isKind
    · contradiction
  split at h
  · split at h
    · cases h
      assumption
    · contradiction
  split at h
  · rename_i hwords
    split at h
    · cases h
      obtain ⟨hwords, hzone⟩ := (Bool.and_eq_true _ _).mp hwords
      obtain ⟨hat, htime⟩ := (Bool.and_eq_true _ _).mp hwords
      exact ⟨Lookahead.isPlain_of_isWord hat, Lookahead.isPlain_of_isWord htime,
        Lookahead.isPlain_of_isWord hzone⟩
    · contradiction
  · contradiction

structure NestedForms (c : Setting) (h w : Nat) (nested : Goal → Parser Rule Unit) : Prop where
  query : Forms c (fun _ => True) h (.oneIn selects) (nested .query)
  queryGroup : Forms c (fun _ => True) h (.one .selectWithParens) (nested .queryGroup)
  condition (k : Nat) : Forms c (fun _ => True) h (.strong expressions k) (nested (.condition k))
  condition_ends (k : Nat) : Ends c (Weaker connective? k) (nested (.condition k))
  predicate (k : Nat) : Forms c (fun _ => True) h (.strong predicates k) (nested (.predicate k))
  test {a : Nat} (ha : h ≤ a) (test : Test) {k : Nat} (hk : k ≤ test.strength) :
    Reforms c (test? · = some test) a (.oneIn predicates) (a + w) (.strong predicates k)
      (fun _ => True) fun m => nested (.test test m k)
  operand (k : Nat) : Forms c (fun _ => True) h (.strong operands k) (nested (.operand k))
  operand_ends (k : Nat) : Ends c (Weaker operandOperator? k) (nested (.operand k))
  suffix {a : Nat} (ha : h ≤ a) (suffix : Suffix) (k : Nat) :
    Reforms c (suffix? k · = some suffix) a (.oneIn operands) (a + w) (.strong operands k)
      (Weaker operandOperator? k) fun m => nested (.suffix suffix m k)
  source : Forms c (fun _ => True) h (.oneIn items) (nested .source)

namespace NestedForms

variable {nested : Goal → Parser Rule Unit} (hn : NestedForms c h w nested)

include hn

theorem expression : Forms c (fun _ => True) h (.strong expressions 0) (nested .expression) :=
  hn.condition 0

theorem expressionList_forms : Forms c pre h (.commas (.strong expressions 0))
    (expressionList nested) :=
  .commaSeparated hn.expression

theorem prefixed_forms :
    Forms c (fun a => (a.kind 0).isPlain) (h + 1) (.one .aExprUnary) (prefixed nested) :=
  .production ((Forms.bump fun _ ha => ha).seq (hn.operand _))

theorem group_forms : Forms c pre (h + 1) (.oneIn primaries) (Postgres.group nested) := by
  unfold Postgres.group
  apply Forms.ahead_bind
  intro a
  split
  · exact .among (.production (Forms.parenthesized hn.query).left) (by decide) (Nat.le_refl _)
  split
  · exact .among (.production Forms.bumpGroup.right) (by decide) (Nat.le_refl _)
  · exact .among (.production (.parenthesized hn.expressionList_forms)) (by decide) (Nat.le_refl _)

theorem row_forms :
    Forms c (·.isKeyword 0 .ROW = true) (h + 1) (.one .cExprRow) (Postgres.row nested) :=
  .production ((Forms.bumpKeyword fun _ ha => ha).seq
    (.parenthesized (.ifSees hn.expressionList_forms)))

theorem existence_forms :
    Forms c (·.isKeyword 0 .EXISTS = true) (h + 1) (.one .cExprExists) (existence nested) :=
  .production ((Forms.bumpKeyword fun _ ha => ha).seq (.parenthesized hn.query))

theorem primary_forms : Forms c pre (h + 2) (.oneIn primaries) (primary nested) := by
  unfold primary
  apply Forms.ahead_bind
  intro a
  have hliteral : a.StartsLiteral →
      Forms c (fun b => pre b ∧ b = a) (h + 2) (.oneIn primaries) literal := by
    intro ha
    exact (literal_forms (h := h)).among_seen ha (by decide) (by omega)
  have hprefixed : (a.kind 0).isPlain →
      Forms c (fun b => pre b ∧ b = a) (h + 2) (.oneIn primaries) (prefixed nested) := by
    intro ha
    exact hn.prefixed_forms.among_seen ha (by decide) (by omega)
  have hsigned (ha : (a.kind 0).isPlain) :=
    Forms.literal_or_prefixed hliteral (hprefixed ha) ha
  have hword : ∀ {word : Keyword} {rule : Rule} {p : Parser Rule Unit},
      Forms c (·.isKeyword 0 word = true) (h + 1) (.one rule) p → rule ∈ primaries →
        a.isKeyword 0 word → Forms c (fun b => pre b ∧ b = a) (h + 2) (.oneIn primaries) p := by
    intro word rule p hp hrule ha
    exact hp.among_seen ha hrule (by omega)
  split
  all_goals first
    | exact hliteral (Lookahead.startsLiteral_of_kind ‹_› rfl rfl)
    | exact hsigned (by rw [‹a.kind 0 = _›]; rfl)
    | exact hprefixed (by rw [‹a.kind 0 = _›]; rfl)
    | exact hn.group_forms.up (Nat.le_succ _)
    | exact named_forms
    | skip
  -- What begins with a name, a parameter or a keyword depends on more.
  · split
    · rename_i hk hstring
      exact hliteral ⟨by rw [hk]; rfl, fun _ => Lookahead.isPlain_of_isKind hstring⟩
    · exact named_forms
  · refine .among (.production (.bump ?_)) (by decide) (by omega : h + 1 ≤ h + 2)
    rintro _ ⟨-, rfl⟩
    rw [‹Lookahead.kind _ 0 = _›]
    rfl
  · split
    all_goals first
      | exact hliteral (Lookahead.startsLiteral_of_kind ‹_› rfl rfl)
      | exact .among (.production .bumpCase) (by decide) (by omega : h + 1 ≤ h + 2)
      | exact hword hn.existence_forms (by decide) (Lookahead.isKeyword_of_kind ‹_›)
      | exact named_forms
      | skip
    all_goals split
    all_goals first
      | exact hword hn.row_forms (by decide) (Lookahead.isKeyword_of_kind ‹_›)
      | exact hword array_forms (by decide) (Lookahead.isKeyword_of_kind ‹_›)
      | exact named_forms
      | skip
    exact intervalLiteral_forms.among_seen
      ⟨Lookahead.isPlain_of_isKeyword (Lookahead.isKeyword_of_kind ‹_›),
        Lookahead.isPlain_of_isKind ‹_›⟩ (by decide) (by omega : h + 1 ≤ h + 2)

theorem infixChain_reforms (ha : h ≤ a) (least : Nat) :
    Reforms c (fun _ => True) a (.oneIn primaries) (a + 30) (.strong operands least)
      (Weaker operandOperator? least) fun m =>
        Parser.infixChain m least (operandOperator? <| ·.kind 0) Parser.bump
          (nested <| .operand ·) :=
  .infixChain (Parser.parsed_of_bump (fun _ => rfl) hn.operand hn.operand_ends)
    operandOperators_shaped ha least

theorem applySuffix_reforms (ha : h ≤ a) (suffix : Suffix) (least : Nat) :
    Reforms c (suffix? least · = some suffix) (a + 1) (.oneIn operands) (a + 2) (.oneIn primaries)
      (fun _ => True) (applySuffix nested suffix) := by
  have hof : ∀ {pre : Lookahead → Prop} {rule : Rule} {f : Shape Rule} {p : Parser Rule Unit},
      Forms c pre (a + 1) f p →
      (Shape.oneIn operands ++ f).Within (shape rule) → rule ∈ primaries →
      Reforms c pre (a + 1) (.oneIn operands) (a + 2) (.oneIn primaries) (fun _ => True)
        fun m => Parser.productionAt m rule p :=
    fun hp hwithin hrule => (Reforms.productionAt hp hwithin (Nat.le_refl _)).sub
      (.oneIn (by simpa using hrule)) (Nat.le_refl _)
  unfold applySuffix
  cases suffix with
  | typecast =>
    exact hof ((Forms.bump fun _ => starts_of_suffix?).seq typeName_forms) (.refl _) (by decide)
  | subscript => exact hof Forms.bumpGroup.left (.refl _) (by decide)
  | field => exact hof (Forms.bumpTwo fun _ => starts_of_suffix?).right (.refl _) (by decide)
  | collation =>
    exact hof ((Forms.bumpKeyword fun _ => starts_of_suffix?).seq (anyName_forms _)) (.refl _)
      (by decide)
  | timeZone =>
    exact hof ((Forms.bumpThree fun _ => starts_of_suffix?).seq
      ((hn.operand _).up (Nat.le_succ_of_le ha))) (.refl _) (by decide)

theorem operandTail_reforms (ha : h ≤ a) (least : Nat) :
    Reforms c (fun _ => True) a (.oneIn primaries) (a + 30 + w) (.strong operands least)
      (Weaker operandOperator? least) fun m => operandTail nested m least := by
  apply (hn.infixChain_reforms ha least).seq
  apply Reforms.sees_cases
  intro suffix?
  cases suffix? with
  | none => exact (Reforms.pure () fun _ hweaker => hweaker.1).sub (.refl _) (Nat.le_add_right _ w)
  | some suffix =>
    have hsuffix := hn.suffix (Nat.le_trans ha (Nat.le_add_right a 30)) suffix least
    exact (hsuffix.from_sub .strong_oneIn (Nat.le_refl _)).weaken fun _ hseen => hseen.2

theorem suffixedOperand_reforms (ha : h ≤ a) (suffix : Suffix) (least : Nat) :
    Reforms c (suffix? least · = some suffix) (a + 1) (.oneIn operands) (a + 32 + w)
      (.strong operands least) (Weaker operandOperator? least)
      fun m => suffixedOperand nested suffix m least := by
  apply (hn.applySuffix_reforms ha suffix least).seq
  exact (hn.operandTail_reforms (Nat.le_add_right_of_le ha) least).sub (.refl _) (by omega)

theorem operand_forms (least : Nat) :
    Forms c pre (h + 32 + w) (.strong operands least) (Postgres.operand nested least) :=
  hn.primary_forms.checkpoint_bind (hn.operandTail_reforms (Nat.le_add_right h 2) least)

theorem operand_weaker (least : Nat) :
    Ends c (Weaker operandOperator? least) (Postgres.operand nested least) :=
  hn.primary_forms.checkpoint_ends (hn.operandTail_reforms (Nat.le_add_right h 2) least)

end NestedForms

end SqlScript.Postgres
