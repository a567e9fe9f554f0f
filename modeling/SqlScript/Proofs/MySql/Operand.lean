import SqlScript.Proofs.MySql.Lookahead
import SqlScript.Proofs.Simulation.Subquery

/-!
Names, calls and operands of MySQL in two runs.
-/

namespace SqlScript.MySql

open SqlScript.Simulation

variable {σ : Simulation Rule} {need : Nat}

theorem dottedName.respects : σ.Respects need 1 dottedName dottedName where
  run s s' hs _ := by
    have hsees := σ.sees hs
    have hname := hsees.ask (·.isName 0) (.inl (Nat.zero_le _))
    rw [dottedName_eq]
    unfold Parser.expectName
    rw [Parser.sees_bind, Parser.sees_bind]
    cases h : (σ.small.ahead s.rest).isName 0 with
    | true =>
      have hreach := Firm.le_reach (n := 1) (q := (·.isName 0)) hsees.stop h
      have hextent := nameExtent.le_reach hsees.stop hreach
      rw [hsees.ask (nameExtent · 0) (hsees.next (n := 0) (q := (·.isName 0)) h)]
      rw [Parser.expectIf_bind h, Parser.expectIf_bind (hname.trans h)]
      generalize nameExtent (σ.small.ahead s.rest) 0 = n at *
      obtain ⟨hafter, hreach⟩ := Respects.advance (n := n - 1) hs (by
        simp only [Setting.rest_ahead] at hextent hreach
        omega)
      apply (Respects.bumpN (n - 1) hafter.rel hreach).mono
      intro _ t t' ht
      exact (hafter.trans ht).weaken (by omega)
    | false =>
      rw [Parser.expectIf_bind_error h, Parser.expectIf_bind_error (hname.trans h)]
      exact .expected _ hs
  forward _ := by
    rw [dottedName_eq]
    exact .sees_bind fun _ => (Parser.Forward.expectIf _ _).bind fun _ => .bumpN _

theorem tableName.respects : σ.Respects need 1 tableName tableName := by
  unfold tableName
  apply Respects.production
  apply Respects.production
  exact dottedName.respects

theorem columnName.respects : σ.Respects need 1 columnName columnName := by
  unfold columnName
  apply Respects.production
  exact dottedName.respects

theorem uid.respects : σ.Respects need 1 uid uid := by
  unfold uid
  apply Respects.production
  exact Respects.expectIf _

theorem uidList.respects : σ.Respects need 1 uidList uidList := by
  unfold uidList
  apply Respects.production
  exact Respects.commaSeparated uid.respects

theorem optionalAlias.respects : σ.Respects need 0 optionalAlias optionalAlias := by
  unfold optionalAlias
  apply Respects.eatIf_ite _ _ (Nat.zero_le 1)
  · exact uid.respects.loose
  · apply Respects.ifSees
    exact uid.respects.loose

theorem overClause.respects : σ.Respects 1 1 overClause overClause := by
  unfold overClause
  apply Respects.production
  apply Respects.seq Respects.bump
  apply Respects.sees_ite
  · exact Respects.bumpGroup.loose
  · exact Respects.expectName.loose

theorem callArguments.respects : σ.Respects need 1 callArguments callArguments := by
  unfold callArguments
  apply Respects.eatIf_join _ _ (Nat.le_refl 1)
  · apply Respects.seq Respects.bumpGroup
    apply Respects.seq
    · apply Respects.ifSees
      exact (Respects.bump_before Respects.bumpGroup).loose
    · apply Respects.ifKeyword
      exact overClause.respects.loose
  · intro h
    exact (Respects.bump_before h).loose

theorem functionCall.respects : σ.Respects 1 1 functionCall functionCall := by
  unfold functionCall
  apply Respects.production
  apply Respects.sees_ite
  · exact Respects.bumpCase
  · apply Respects.seq Respects.bump
    apply Respects.ifSees
    exact callArguments.respects.loose

theorem constant.forward : Parser.Forward constant :=
  .production _ (.production _ literalParts.forward)

theorem constant.outcome {s s' : ParserState Rule} (hs : σ.rel s s') (hreach : 1 ≤ reach s.rest)
    (hsign : (σ.small.ahead s.rest).hasLiteralSign → 2 ≤ reach s.rest) :
    σ.Outcome (fun _ t t' => σ.After 1 s t t') (constant σ.small s) (constant σ.large s') := by
  unfold constant
  apply Outcome.production _ hs
  intro t t' ht hrest
  rw [← hrest] at hreach hsign
  apply Outcome.production _ ht
  intro u u' hu hrest
  rw [← hrest] at hreach hsign
  exact Outcome.literal hu hreach hsign

/--
Parsers for the goals one level deeper, in both runs.
-/
structure Nests (σ : Simulation Rule) (nested nested' : Goal → Parser Rule Unit) : Prop where
  query : σ.Respects 0 1 (nested .query) (nested' .query)
  queryGroup : σ.Respects 0 1 (nested .queryGroup) (nested' .queryGroup)
  condition (least : Nat) :
    σ.Respects 0 1 (nested (.condition least)) (nested' (.condition least))
  predicate (least : Nat) :
    σ.Respects 0 1 (nested (.predicate least)) (nested' (.predicate least))
  test (test : Test) {m m' : Nat} (hm : σ.mark m m') (least : Nat) :
    σ.Respects 1 0 (nested (.test test m least)) (nested' (.test test m' least))
  operand (least : Nat) : σ.Respects 0 1 (nested (.operand least)) (nested' (.operand least))
  collation {m m' : Nat} (hm : σ.mark m m') (least : Nat) :
    σ.Respects 1 0 (nested (.collation m least)) (nested' (.collation m' least))
  source : σ.Respects 0 1 (nested .source) (nested' .source)
  deep : σ.Deep σ.small.limit (nested .query)
  dialect : σ.small.dialect = .mySql
  /-- A `CASE` that is not ended is no expression. -/
  caseless (s : ParserState Rule) (h : (σ.small.ahead s.rest).isKeyword 0 .CASE)
    (hnone : (σ.small.ahead s.rest).caseExtent? 0 = none) :
    Parser.Fails σ.small (fun _ => True) (nested .expression) s
  /-- A call that misses the name of its window is none either. -/
  windowless (hstop : σ.small.stop.kind = .eof) (s : ParserState Rule)
    (h : EndsWithOver (σ.small.ahead s.rest)) :
    Parser.Fails σ.small (fun _ => True) (nested .expression) s

namespace Nests

variable {nested nested' : Goal → Parser Rule Unit} (h : Nests σ nested nested')

include h

theorem expression : σ.Respects 0 1 (nested .expression) (nested' .expression) :=
  h.condition 0

theorem reserved : σ.small.dialect.isReserved .CASE := by
  rw [h.dialect]
  rfl

theorem respects_prefixed (rule : Rule) :
    σ.Respects 1 1 (prefixed nested rule) (prefixed nested' rule) := by
  unfold MySql.prefixed
  apply Respects.production
  apply Respects.seq Respects.bump
  exact (h.operand _).loose

theorem respects_group : σ.Respects need 1 (group nested) (group nested') := by
  unfold MySql.group
  apply Respects.opensSubquery_ite
  · apply Respects.production
    exact Respects.parenthesized h.query
  · apply Respects.production
    exact Respects.parenthesized (Respects.commaSeparated h.expression)
  · exact h.deep.parenthesized.production

theorem respects_row : σ.Respects 1 1 (row nested) (row nested') := by
  unfold MySql.row
  apply Respects.production
  apply Respects.seq Respects.bump
  exact (Respects.parenthesized (Respects.commaSeparated h.expression)).loose

theorem respects_existence : σ.Respects 1 1 (existence nested) (existence nested') := by
  unfold MySql.existence
  apply Respects.production
  apply Respects.seq Respects.bump
  exact (Respects.parenthesized h.query).loose

theorem respects_interval : σ.Respects 1 1 (interval nested) (interval nested') := by
  unfold MySql.interval
  apply Respects.production
  apply Respects.seq Respects.bump
  apply Respects.seq h.expression.loose
  exact (Respects.expectIf _).loose

theorem respects_assignment : σ.Respects 2 1 (assignment nested) (assignment nested') := by
  unfold MySql.assignment
  apply Respects.production
  apply Respects.seq
  · exact (Respects.bumpN 2).weaken (Nat.le_refl _) (by omega)
  · exact (h.operand 0).loose

theorem excused_of_case {s s' : ParserState Rule} (hs : σ.rel s s')
    (hout : CaseReachesOut (σ.small.ahead s.rest) (σ.large.ahead s'.rest) 0) (f : Failure) :
    σ.excused f := by
  obtain hexcused | hcomplete := (σ.lenient hs).resolve_left hout.longer
  · exact hexcused f
  · obtain ⟨us, hus, hended⟩ := hcomplete.ended (congrArg Dialect.flavor h.dialect)
    have hrest : (σ.large.ahead s'.rest).rest = (σ.small.ahead s.rest).rest ++ us := hus
    have hsome := Lookahead.caseExtent?_isSome_of_casesEnd hended hrest (σ.sees hs).stop hout.isCase
      hout.ends
    rw [hout.isOpen] at hsome
    contradiction

theorem respects_named : σ.Respects need 1 named named where
  run s s' hs _ := by
    have hsees := σ.sees hs
    have h₀ : Covers (σ.small.ahead s.rest) (σ.large.ahead s'.rest) 0 := .inl (Nat.zero_le _)
    unfold named
    rw [Parser.sees_bind, Parser.sees_bind]
    obtain heq | hout := callExtent?_of_sees hsees
    · rw [heq]
      split
      · have hreach := Firm.le_reach (n := 1) (q := fun a => (callExtent? a 0).isSome) hsees.stop ‹_›
        exact Respects.production _ functionCall.respects hs hreach
      · rw [Parser.sees_bind, Parser.sees_bind, hsees.ask (·.isName 0) h₀]
        split
        · exact Respects.production _ columnName.respects hs (Nat.zero_le _)
        · exact .expected _ hs
    · rw [callExtent?_of_case hout.isCase hout.isOpen]
      change σ.Outcome _ ((Parser.sees (·.isName 0) >>= _) σ.small s) _
      rw [Parser.sees_bind, isName_of_case hout.isCase h.reserved]
      exact .excused (h.excused_of_case hs hout _)
  forward hb := .sees_ite (.production _ (functionCall.respects.forward hb)) <|
    .sees_ite (.production _ (columnName.respects.onward hb)) (.expected _)

omit h in
theorem constant_of_kind {s s' : ParserState Rule} (hs : σ.rel s s') {kind : TokenKind}
    (hkind : (σ.small.ahead s.rest).kind 0 = kind) (hend : ¬kind.isEnd)
    (hsign : (kind.alike .minus || kind.alike .plus || kind.alike (.identifier "")) = false) :
    σ.Outcome (fun _ t t' => σ.After 1 s t t') (constant σ.small s) (constant σ.large s') := by
  apply constant.outcome hs (one_le_reach hs (hkind ▸ hend))
  intro h
  unfold Lookahead.hasLiteralSign Lookahead.isKind at h
  rw [hkind, hsign] at h
  contradiction

theorem signed {s s' : ParserState Rule} (hs : σ.rel s s') {kind : TokenKind}
    (hkind : (σ.small.ahead s.rest).kind 0 = kind) (hend : ¬kind.isEnd) :
    σ.Outcome (fun _ t t' => σ.After 1 s t t')
      ((if (σ.small.ahead s.rest).isKind 1 .integer || (σ.small.ahead s.rest).isKind 1 .float then
        constant else prefixed nested .unaryExpressionAtom) σ.small s)
      ((if (σ.small.ahead s.rest).isKind 1 .integer || (σ.small.ahead s.rest).isKind 1 .float then
        constant else prefixed nested' .unaryExpressionAtom) σ.large s') := by
  have hreach := one_le_reach hs (hkind ▸ hend)
  split
  · rename_i hnumber
    apply constant.outcome hs hreach
    intro _
    exact Lookahead.lt_reach_of_kind (σ.sees hs).stop hreach
      (Rejects.not_isEnd (q := fun a => a.isKind 1 .integer || a.isKind 1 .float) hnumber)
  · exact h.respects_prefixed _ hs hreach

theorem introduced {s s' : ParserState Rule} (hs : σ.rel s s') (hreach : 1 ≤ reach s.rest) :
    σ.Outcome (fun _ t t' => σ.After 1 s t t')
      ((if introducesString (σ.small.ahead s.rest) then constant else named) σ.small s)
      ((if introducesString (σ.small.ahead s.rest) then constant else named) σ.large s') := by
  split
  · rename_i hintroduces
    apply constant.outcome hs hreach
    intro _
    exact introducesString_le_reach (σ.sees hs).stop hintroduces
  · exact h.respects_named hs (Nat.zero_le _)

theorem respects_primary : σ.Respects 0 1 (primary nested) (primary nested') where
  run s s' hs _ := by
    have hsees := σ.sees hs
    unfold primary
    rw [Parser.ahead_bind, Parser.ahead_bind]
    have hstring := hsees.ask introducesString (.inl (Nat.zero_le _))
    obtain heq | ⟨name, name', hname, hname', -⟩ | ⟨heof, hsemi⟩ :=
      hsees.kind (n := 0) (.inl (Nat.zero_le _))
    · rw [heq]
      by_cases hend : ((σ.small.ahead s.rest).kind 0).isEnd
      · obtain heof | hsemi := hend
        · rw [heof]
          exact h.respects_named hs (Nat.zero_le _)
        · rw [hsemi]
          exact h.respects_named hs (Nat.zero_le _)
      have hreach := one_le_reach hs hend
      have h₁ : Covers (σ.small.ahead s.rest) (σ.large.ahead s'.rest) 1 :=
        .inl (Nat.le_trans hreach (reach_le_length _))
      have hnumber := hsees.ask (fun a => a.isKind 1 .integer || a.isKind 1 .float) h₁
      have hassign := hsees.ask (·.isKind 1 .assign) h₁
      have hparen := hsees.ask (·.isKind 1 .leftParen) h₁
      generalize hkind : (σ.small.ahead s.rest).kind 0 = kind at hend
      simp only [hnumber, hassign, hparen, hstring]
      split
      · exact constant_of_kind hs hkind hend rfl
      · exact constant_of_kind hs hkind hend rfl
      · exact constant_of_kind hs hkind hend rfl
      · exact constant_of_kind hs hkind hend rfl
      · exact constant_of_kind hs hkind hend rfl
      · exact h.signed hs hkind hend
      · exact h.signed hs hkind hend
      · exact h.respects_prefixed _ hs hreach
      · exact h.respects_prefixed _ hs hreach
      · exact h.introduced hs hreach
      · split
        · rename_i hassign
          have hreach := Lookahead.lt_reach_of_kind hsees.stop hreach
            (Rejects.not_isEnd (q := (·.isKind 1 .assign)) hassign)
          exact h.respects_assignment hs hreach
        · exact Respects.production _ Respects.bump hs hreach
      · exact Respects.production _ Respects.bump hs hreach
      · exact h.respects_group hs (Nat.zero_le _)
      · split
        · exact constant_of_kind hs hkind hend rfl
        · exact constant_of_kind hs hkind hend rfl
        · exact constant_of_kind hs hkind hend rfl
        · exact h.respects_prefixed _ hs hreach
        · exact h.respects_prefixed _ hs hreach
        · split
          · exact h.respects_row hs hreach
          · exact h.respects_named hs (Nat.zero_le _)
        · exact h.respects_existence hs hreach
        · exact h.respects_interval hs hreach
        · exact h.respects_named hs (Nat.zero_le _)
      · exact h.respects_named hs (Nat.zero_le _)
    · rw [hname, hname', hstring]
      exact h.introduced hs (one_le_reach hs (by simp [hname, TokenKind.isEnd]))
    · rw [heof, hsemi]
      exact h.respects_named hs (Nat.zero_le _)
  forward hb := by
    have hnamed := h.respects_named.onward hb
    apply Parser.Forward.ahead_bind
    intro a
    repeat' split
    all_goals first
      | exact constant.forward
      | exact hnamed
      | exact (h.respects_prefixed _).forward hb
      | exact h.respects_assignment.forward hb
      | exact .production _ .bump
      | exact h.respects_group.onward hb
      | exact h.respects_row.forward hb
      | exact h.respects_existence.forward hb
      | exact h.respects_interval.forward hb

theorem respects_operandTail {m m' : Nat} (hm : σ.mark m m') (least : Nat) :
    σ.Respects 0 0 (operandTail nested m least) (operandTail nested' m' least) := by
  unfold MySql.operandTail
  apply Respects.seq (.infixChain_kind hm least rfl rfl (fun _ => rfl) .bump h.operand)
  exact Respects.ifSees_firm (h.collation hm least)

theorem respects_collation {m m' : Nat} (hm : σ.mark m m') (least : Nat) :
    σ.Respects 1 0 (MySql.collation nested m least)
      (MySql.collation nested' m' least) := by
  unfold MySql.collation
  apply Respects.seq
  · apply Respects.productionAt hm
    apply Respects.seq Respects.bump.loose
    exact (Respects.expectIf _).loose
  · exact h.respects_operandTail hm least

theorem respects_operand (least : Nat) :
    σ.Respects 0 1 (MySql.operand nested least) (MySql.operand nested' least) := by
  unfold MySql.operand
  apply Respects.checkpoint_bind
  intro m m' hm
  apply Respects.seq h.respects_primary
  exact h.respects_operandTail hm least

end Nests

end SqlScript.MySql
