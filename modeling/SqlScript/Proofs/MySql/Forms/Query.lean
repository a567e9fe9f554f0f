import SqlScript.Proofs.MySql.Forms.Clause

/-!
MySQL select statements, and the statements that change rows, have their shapes.
-/

namespace SqlScript.MySql

open SqlScript.Parser (Forms Leads Reforms Rounds)

variable {c : Setting} {pre : Lookahead → Prop} {h w : Nat}

/-- In front of a star that is not the first token stands a name. -/
instance : Announces (fun a => (starExtent? a).any (0 < ·)) Token.isNamePart where
  cons {a} _ hstar := by
    unfold starExtent? at hstar
    split at hstar
    · contradiction
    · cases hrest : a.rest with
      | nil =>
        rw [hrest] at hstar
        contradiction
      | cons t ts =>
        refine ⟨t, ts, rfl, ?_⟩
        rw [hrest] at hstar
        cases ts with
        | nil => contradiction
        | cons dot ts =>
          unfold qualifiedStar? at hstar
          split at hstar
          · rename_i hname
            exact (Bool.and_eq_true _ _ ▸ hname).1
          · contradiction

theorem one_lt_of_starExtent? {a : Lookahead} {n : Nat} (h : starExtent? a = some (n + 1)) :
    0 < n := by
  unfold starExtent? at h
  split at h
  · cases h
  unfold qualifiedStar? at h
  split at h
  · split at h
    · split at h
      · cases h
        exact Nat.one_pos
      · obtain ⟨m, -, hm⟩ := Option.map_eq_some_iff.1 h
        omega
    · contradiction
  · contradiction

theorem isDotted_of_qualifiedStar? {c : Setting} {ts : List Token} {n : Nat}
    (h : qualifiedStar? ts = some n) :
    (∀ k < n, ((c.ahead ts).token k).isDotted) ∧ (c.ahead ts).isKind n .star := by
  fun_induction qualifiedStar? ts generalizing n with
  | case1 name dot rest hname hstar =>
    cases h
    obtain ⟨hpart, hdot⟩ := (Bool.and_eq_true _ _).mp hname
    constructor
    · intro k hk
      obtain rfl | rfl : k = 0 ∨ k = 1 := by omega
      · exact (Bool.or_eq_true _ _).mpr (.inl hpart)
      · exact (Bool.or_eq_true _ _).mpr (.inr hdot)
    · obtain ⟨star, hhead, hkind⟩ := (Option.any_eq_true _ _).1 hstar
      cases rest with
      | nil => contradiction
      | cons t rest =>
        cases hhead
        exact hkind
  | case2 name dot rest hname hstar ih =>
    obtain ⟨m, hm, rfl⟩ := Option.map_eq_some_iff.1 h
    obtain ⟨hpart, hdot⟩ := (Bool.and_eq_true _ _).mp hname
    refine ⟨?_, (ih hm).2⟩
    intro k hk
    obtain rfl | rfl | ⟨k, rfl⟩ : k = 0 ∨ k = 1 ∨ ∃ i, k = i + 2 := by
      rcases k with _ | _ | k
      · exact .inl rfl
      · exact .inr (.inl rfl)
      · exact .inr (.inr ⟨k, rfl⟩)
    · exact (Bool.or_eq_true _ _).mpr (.inl hpart)
    · exact (Bool.or_eq_true _ _).mpr (.inr hdot)
    · exact (ih hm).1 k (by omega)
  | case3 => contradiction
  | case4 => contradiction

theorem isDotted_of_starExtent? {a : Lookahead} {n k : Nat} (h : starExtent? a = some n)
    (hk : k < n) : (a.token k).isDotted := by
  unfold starExtent? at h
  split at h
  · cases h
    contradiction
  · exact (isDotted_of_qualifiedStar? h).1 k hk

theorem isPlain_of_starExtent? {a : Lookahead} {n k : Nat} (h : starExtent? a = some n)
    (hk : k ≤ n) : (a.kind k).isPlain := by
  obtain hlt | rfl := Nat.lt_or_eq_of_le hk
  · exact Token.Plain.isPlain (p := Token.isDotted) (isDotted_of_starExtent? h hlt)
  unfold starExtent? at h
  split at h
  · cases h
    exact Lookahead.isPlain_of_isKind ‹_›
  · exact Lookahead.isPlain_of_isKind (isDotted_of_qualifiedStar? h).2

theorem starElement_forms {n : Nat} :
    Forms c (fun a => starExtent? a = some n) (h + 2) (.one .selectStarElement)
      (starElement n) := by
  unfold starElement
  apply Forms.production
  cases n with
  | zero =>
    apply (Forms.bump _).sub (.opt_append _) (Nat.le_refl _)
    exact fun _ hstar => isPlain_of_starExtent? hstar (Nat.le_refl _)
  | succ n =>
    have hname : Forms c (fun a => starExtent? a = some (n + 1)) (h + 1) (.one .fullId)
        (Parser.production Rule.fullId (Parser.bumpN n)) := by
      apply Forms.production
      cases n with
      | zero =>
        intro s t u _ _ hstar
        exact absurd (one_lt_of_starExtent? hstar) (Nat.lt_irrefl 0)
      | succ n =>
        have hfirst : Forms c (fun a => starExtent? a = some (n + 1 + 1)) h (.namePart : Shape Rule)
            Parser.bump := by
          apply Forms.bump_of (fun a => (starExtent? a).any (0 < ·))
          intro a hstar
          rw [hstar]
          rfl
        have hsecond : Leads c (fun a => starExtent? a = some (n + 1 + 1))
            (fun a => ∀ k < n, (a.token k).isDotted) (Parser.bump : Parser Rule Unit) := by
          apply Leads.bump
          intro a hstar k hk
          rw [Lookahead.token_skip]
          exact isDotted_of_starExtent? hstar (by omega)
        exact hfirst.seq_of hsecond (.bumpN_of _ fun _ ha => ha)
    have hdot : Leads c (fun a => starExtent? a = some (n + 1))
        (fun a => (a.kind 0).isPlain ∧ (a.kind 1).isPlain)
        (Parser.production Rule.fullId (Parser.bumpN n)) := by
      apply Leads.production
      apply Leads.bumpN
      intro a hstar
      rw [Lookahead.kind_skip, Lookahead.kind_skip]
      exact ⟨isPlain_of_starExtent? hstar (by omega), isPlain_of_starExtent? hstar (by omega)⟩
    have hstar : Leads c (fun a => (a.kind 0).isPlain ∧ (a.kind 1).isPlain)
        (fun a => (a.kind 0).isPlain) (Parser.bump : Parser Rule Unit) := by
      apply Leads.bump
      intro a ha
      rw [Lookahead.kind_skip]
      exact ha.2
    have hqualified := hname.seq_of hdot
      ((Forms.bump fun _ ha => ha.1).seq_of hstar (.bump fun _ ha => ha))
    exact hqualified.sub (Shape.Within.assoc_symm.trans (.append (.opt _) (.refl _)))
      (Nat.le_refl _)

theorem deleteTargets_forms : Forms c pre (h + 2) targetsShape deleteTargets := by
  have hstar : Forms c (fun a => (a.isKind 0 .dot && a.isKind 1 .star) = true) (h + 2)
      (.tokens : Shape Rule) (Parser.bumpN 2) := by
    apply Forms.bumpTwo
    intro a ha
    obtain ⟨hdot, hstar⟩ := (Bool.and_eq_true _ _).mp ha
    exact ⟨Lookahead.isPlain_of_isKind hdot, Lookahead.isPlain_of_isKind hstar⟩
  exact .commaSeparated (tableName_forms.seq (.ifSees hstar))

theorem insertedColumns_forms :
    Forms c pre (h + 2) (Shape.parens (Shape.one .uidList).opt).opt insertedColumns :=
  .ifSees (.parenthesized (.ifSees uidList_forms))

theorem rowAlias_forms :
    Forms c pre (h + 1) (Shape.sequence [.word .AS, .one .uid, .opt .tokenGroup]).opt rowAlias :=
  .afterKeyword (uid_forms.seq (.ifSees .bumpGroup))

theorem isPlain_of_startsModifier {a : Lookahead} (h : startsModifier a) : (a.kind 0).isPlain :=
  ((Bool.or_eq_true _ _).mp h).elim Lookahead.isPlain_of_isOneOf Lookahead.isPlain_of_any_isWord

theorem isPlain_of_lt_skipModifiers {words : List String} {a : Lookahead} {k : Nat}
    (hfirst : (a.kind 0).isPlain) (hk : k < skipModifiers words a 1) : (a.kind k).isPlain := by
  cases k with
  | zero => exact hfirst
  | succ k =>
    unfold skipModifiers at hk
    have hlt : k < ((a.rest.drop 1).takeWhile (skipModifiers.isModifier words)).length := by omega
    have hmem := List.getElem_mem hlt
    have hmodifier := List.all_eq_true.1 List.all_takeWhile _ hmem
    have htoken : a.token (k + 1) =
        ((a.rest.drop 1).takeWhile (skipModifiers.isModifier words))[k] := by
      have hinitial := List.takeWhile_prefix (skipModifiers.isModifier words) (l := a.rest.drop 1)
      rw [hinitial.getElem hlt, List.getElem_drop]
      have hlen := hinitial.length_le
      rw [List.length_drop] at hlen
      rw [Lookahead.token_of_lt (by omega)]
      simp [Nat.add_comm]
    rw [← htoken] at hmodifier
    exact Token.Plain.isPlain
      (p := fun t => t.isOneOf [.LOW_PRIORITY, .IGNORE] || words.any t.isWord) hmodifier

namespace NestedForms

variable {nested : Goal → Parser Rule Unit} (hn : NestedForms c h w nested)

include hn

-- Queries

theorem plainElement_forms : Forms c pre (h + 3) (.oneIn elements) (plainElement nested) := by
  unfold plainElement
  apply Forms.ahead_bind
  intro a
  split
  · rename_i hcall
    apply Forms.among (.production _) (by decide) (Nat.le_refl _)
    apply (functionCall_forms.weaken _).seq optionalAlias_forms
    rintro _ ⟨-, rfl⟩
    obtain ⟨n, hn, -⟩ := (Option.any_eq_true _ _).1 hcall
    exact Option.isSome_of_eq_some hn
  split
  · apply Forms.among (.production _) (by decide) (Nat.le_refl _)
    exact columnName_forms.seq optionalAlias_forms
  · apply Forms.among (.production _) (by decide) (Nat.le_refl _)
    exact (hn.expression.anywhere.up (Nat.le_add_right h 2)).seq optionalAlias_forms

theorem selectElement_forms : Forms c pre (h + 3) (.oneIn elements) (selectElement nested) := by
  unfold selectElement
  apply Forms.sees_cases
  intro a
  cases hstar : starExtent? a with
  | some n =>
    exact (starElement_forms (h := h)).among_seen hstar (by decide) (by omega)
  | none => exact hn.plainElement_forms

theorem selectElements_forms : Forms c pre (h + 4) (.one .selectElements) (selectElements nested) :=
  .production (.commaSeparatedFrom (.eatIf_unless hn.selectElement_forms) hn.selectElement_forms)

theorem fromClause_forms : Forms c pre (h + 7) (.one .fromClause) (fromClause nested) := by
  unfold fromClause
  apply Forms.production
  apply Forms.seq (.afterKeyword hn.tableSources_forms)
  exact hn.whereCondition_forms.up (by omega)

theorem querySpecification_forms (withTail : Bool) :
    Forms c pre (h + 8) (.one .querySpecification) (querySpecification nested withTail) := by
  have htail : Forms c (fun _ => True) (h + 7)
      (.sequence [.opt (.one .orderByClause), .opt (.one .limitClause),
        .opt (.one .selectIntoExpression)])
      (if withTail = true then do
          orderAndLimit nested
          Parser.ifKeyword .INTO intoClause
        else Parser.ifKeyword .INTO intoClause) := by
    cases withTail with
    | true =>
      apply ((hn.orderAndLimit_forms.up (by omega : h + 2 ≤ h + 7)).seq
        (.ifKeyword intoClause_forms)).sub .assoc (Nat.le_refl _)
    | false =>
      apply (Forms.ifKeyword intoClause_forms).sub _ (Nat.le_refl _)
      exact (Shape.Within.opt_append _).trans (.opt_append _)
  unfold querySpecification
  apply Forms.production
  apply (Forms.expectKeyword _).seq
  apply Forms.seq (.whileSees (.production (.bump fun _ => isPlain_of_startsModifier)))
  apply (hn.selectElements_forms.up (by omega)).seq
  apply Forms.seq (.ifKeyword intoClause_forms)
  apply Forms.seq (.ifSees hn.fromClause_forms)
  apply Forms.seq (.ifKeyword (hn.groupByClause_forms.up (by omega)))
  apply Forms.seq (.ifKeyword (hn.havingClause_forms.up (by omega)))
  exact Forms.seq (.ifKeyword windowClause_forms) htail

theorem unionOperand_forms : Forms c pre (h + 8) (.oneIn unionOperands) (unionOperand nested) := by
  unfold unionOperand
  apply Forms.sees_ite
  · exact hn.queryGroup.anywhere.among (by decide) (by omega)
  · exact (hn.querySpecification_forms false).among (by decide) (Nat.le_refl _)

theorem unionPart_forms :
    Forms c (·.isKeyword 0 .UNION = true) (h + 9) (.one .unionStatement) (unionPart nested) := by
  unfold unionPart
  apply Forms.production
  apply (Forms.bump_of (·.isKeyword 0 .UNION) fun _ ha => ha).seq
  exact (Forms.optionalOneOf _).seq hn.unionOperand_forms

theorem unionSelect_forms : Forms c pre (h + 10) (.one .unionSelect) (unionSelect nested) := by
  unfold unionSelect
  apply Forms.production
  apply (hn.unionOperand_forms.up (by omega)).seq
  apply Forms.seq (.whileSees hn.unionPart_forms)
  exact hn.selectTail_forms.up (by omega)

theorem queryGroup_forms : Forms c pre (h + 11) (.one .queryExpression)
    (MySql.queryGroup nested) := by
  unfold MySql.queryGroup
  apply Forms.production
  apply Forms.parenthesized
  apply Forms.sees_ite
  · exact hn.unionSelect_forms.among (by decide) (Nat.le_refl _)
  apply Forms.sees_ite
  · exact hn.queryGroup.anywhere.among (by decide) (by omega)
  · exact (hn.querySpecification_forms true).among (by decide) (by omega)

theorem query_forms : Forms c pre (h + 10) (.oneIn selects) (MySql.query nested) := by
  unfold MySql.query
  apply Forms.sees_ite
  · exact hn.unionSelect_forms.among (by decide) (Nat.le_refl _)
  apply Forms.sees_ite
  · apply Forms.among (.production _) (by decide) (by omega : h + 2 + 1 ≤ h + 10)
    exact (hn.queryGroup.anywhere.up (by omega)).seq hn.selectTail_forms
  · apply Forms.among (.production _) (by decide) (by omega : h + 8 + 1 ≤ h + 10)
    exact (hn.querySpecification_forms true).seq (.ifSees lockClause_forms)

-- Changes

theorem expressionOrDefault_forms :
    Forms c pre (h + 1) (.oneIn assigned) (expressionOrDefault nested) := by
  have hdefault : Forms c (·.isKeyword 0 .DEFAULT = true) (h + 1) (.one Rule.defaultExpression)
      (Parser.production Rule.defaultExpression Parser.bump) :=
    .production (.bumpKeyword fun _ ha => ha)
  unfold expressionOrDefault
  apply Forms.sees_ite
  · apply (hdefault.weaken _).among (by decide) (Nat.le_refl _)
    exact fun _ ha => ((Bool.and_eq_true _ _).mp ha.2).1
  · apply hn.expression.anywhere.sub _ (Nat.le_succ h)
    exact Shape.Within.strong_oneIn.trans (.oneIn (by decide))

theorem valueRow_forms : Forms c pre (h + 2) (.one .expressionsWithDefaults) (valueRow nested) :=
  .production (.ifSees (.commaSeparated hn.expressionOrDefault_forms))

theorem updatedElement_forms :
    Forms c pre (h + 2) (.one .updatedElement) (updatedElement nested) :=
  .production (columnName_forms.seq ((Forms.expect _).seq hn.expressionOrDefault_forms))

theorem updatedElements_forms :
    Forms c pre (h + 2) (.commas (.one .updatedElement)) (updatedElements nested) :=
  .commaSeparated hn.updatedElement_forms

theorem insertedRows_forms :
    Forms c pre (h + 3) (.one .insertStatementValue) (insertedRows nested) := by
  unfold insertedRows
  apply Forms.production
  apply Forms.eatIf_ite
  · apply Forms.commaSeparated
    exact (Forms.optionalKeyword _).seq (.parenthesized hn.valueRow_forms)
  · exact .sees_ite (hn.query.anywhere.up (by omega)) (.expected _)

theorem duplicateKeyUpdate_forms :
    Forms c (fun a => (a.isKeyword 0 .ON && a.isWord 1 "DUPLICATE") = true) (h + 3)
      (.one .duplicateKeyUpdate) (duplicateKeyUpdate nested) := by
  have hstart : Forms c (fun a => (a.isKeyword 0 .ON && a.isWord 1 "DUPLICATE") = true) (h + 2)
      (.tokens : Shape Rule) (Parser.bumpN 2) := by
    apply Forms.bumpTwo
    intro a ha
    obtain ⟨hon, hword⟩ := (Bool.and_eq_true _ _).mp ha
    exact ⟨Lookahead.isPlain_of_isKeyword hon, Lookahead.isPlain_of_isWord hword⟩
  unfold duplicateKeyUpdate
  apply Forms.production
  apply hstart.seq
  apply (Forms.expectKeyword _).seq
  exact (Forms.expectKeyword _).seq hn.updatedElements_forms

theorem insert_forms : Forms c (·.isKeyword 0 .INSERT = true) (h + 4) (.one .insertStatement)
    (insert nested) := by
  have hend : Forms c (fun _ => True) (h + 3)
      (.sequence [.opt (.sequence [.word .AS, .one .uid, .opt .tokenGroup]),
        .opt (.one .duplicateKeyUpdate)])
      (do
        rowAlias
        Parser.ifSees (fun a => a.isKeyword 0 .ON && a.isWord 1 "DUPLICATE")
          (duplicateKeyUpdate nested) : Parser Rule Unit) :=
    rowAlias_forms.seq (.ifSees hn.duplicateKeyUpdate_forms)
  unfold insert
  apply Forms.production
  apply (Forms.bumpKeyword fun _ ha => ha).seq
  apply Forms.seq (.tokens_while (.bump_tokens fun _ ha => Lookahead.isPlain_of_isOneOf ha))
  apply (Forms.optionalKeyword _).seq
  apply (tableName_forms.up (by omega : h + 2 ≤ h + 3)).seq
  apply partitionGroup_forms.seq
  apply (insertedColumns_forms.up (by omega : h + 2 ≤ h + 3)).seq
  apply Forms.eatIf_join
  · exact (hn.updatedElements_forms.up (by omega)).seq hend
  · exact hn.insertedRows_forms.seq hend

theorem assignments_forms : Forms c pre (h + 2) assignmentsShape (assignments nested) := by
  unfold assignments
  apply (Forms.expectKeyword _).seq
  exact hn.updatedElements_forms.seq (hn.whereCondition_forms.up (by omega))

theorem update_forms :
    Forms c (·.isKeyword 0 .UPDATE = true) (h + 7) (.oneIn updates) (update nested) := by
  unfold update
  apply Forms.sees_cases
  intro a
  have hfirst : ∀ {q : Lookahead → Prop} {h : Nat},
      Forms c (fun b => (b.isKeyword 0 .UPDATE = true ∧ b = a) ∧ q b) h (.tokens : Shape Rule)
        (Parser.bumpN (skipModifiers [] a 1)) := by
    intro q h
    apply Forms.bumpN
    rintro _ ⟨⟨hupdate, rfl⟩, -⟩ k hk
    exact isPlain_of_lt_skipModifiers (Lookahead.isPlain_of_isKeyword hupdate) hk
  generalize skipModifiers [] a 1 = first at hfirst
  apply Forms.sees_ite
  · apply Forms.among (.production _) (by decide) (by omega : h + 3 ≤ h + 7)
    apply hfirst.seq
    apply tableName_forms.seq
    apply optionalAlias_forms.seq
    exact hn.assignments_forms.seq hn.orderAndLimit_forms
  · apply Forms.among (.production _) (by decide) (Nat.le_refl _)
    apply hfirst.seq
    apply hn.tableSources_forms.seq
    exact hn.assignments_forms.up (by omega)

theorem delete_forms :
    Forms c (·.isKeyword 0 .DELETE = true) (h + 7) (.oneIn deletes) (delete nested) := by
  unfold delete
  apply Forms.sees_cases
  intro a
  have hplain : ∀ b, b.isKeyword 0 .DELETE = true ∧ b = a →
      ∀ k < skipModifiers ["QUICK"] a 1, (b.kind k).isPlain := by
    rintro _ ⟨hdelete, rfl⟩ k hk
    exact isPlain_of_lt_skipModifiers (Lookahead.isPlain_of_isKeyword hdelete) hk
  generalize skipModifiers ["QUICK"] a 1 = first at hplain
  apply Forms.sees_ite
  · have hfrom : Forms c (fun b => (b.isKeyword 0 .DELETE = true ∧ b = a) ∧
        deletesFromOneTable first b = true) (h + 2) (.tokens : Shape Rule)
        (Parser.bumpN (first + 1)) := by
      apply Forms.bumpN
      intro b hb k hk
      obtain hlt | rfl : k < first ∨ k = first := by omega
      · exact hplain b hb.1 k hlt
      · exact Lookahead.isPlain_of_isKeyword ((Bool.and_eq_true _ _).mp hb.2).1
    apply Forms.among (.production _) (by decide) (by omega : h + 3 ≤ h + 7)
    apply hfrom.seq
    apply tableName_forms.seq
    apply optionalAlias_forms.seq
    apply partitionGroup_forms.seq
    exact (hn.whereCondition_forms.up (by omega)).seq hn.orderAndLimit_forms
  · have hend : Forms c (fun _ => True) (h + 6) (.sequence [.one .tableSources, conditionShape])
        (do
          tableSources nested
          whereCondition nested : Parser Rule Unit) :=
      hn.tableSources_forms.seq (hn.whereCondition_forms.up (by omega))
    apply Forms.among (.production _) (by decide) (Nat.le_refl _)
    apply Forms.seq (.bumpN fun b hb => hplain b hb.1)
    have htargets : ∀ {pre} (word : Keyword), Forms c pre (h + 6)
        (.sequence [targetsShape, .word word] ++ .sequence [.one .tableSources, conditionShape])
        (do
          deleteTargets
          Parser.expectKeyword word
          tableSources nested
          whereCondition nested : Parser Rule Unit) := by
      intro pre word
      apply ((deleteTargets_forms.up (by omega : h + 2 ≤ h + 6)).seq
        ((Forms.expectKeyword word).seq hend)).sub .assoc_symm (Nat.le_refl _)
    exact .eatIf_join (htargets .USING) (htargets .FROM)

end NestedForms

end SqlScript.MySql
