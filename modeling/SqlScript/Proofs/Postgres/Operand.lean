import SqlScript.Proofs.Postgres.Lookahead
import SqlScript.Proofs.Simulation.Subquery

/-!
Names, calls and operands of PostgreSQL in two runs.
-/

namespace SqlScript.Postgres

open SqlScript.Simulation

variable {σ : Simulation Rule} {need : Nat}

theorem nameParts.respects : σ.Respects need 0 nameParts nameParts := by
  unfold nameParts
  apply Respects.whileSees (n := 2)
  exact (Respects.bumpN 2).weaken (Nat.le_refl _) (by omega)

theorem name.respects : σ.Respects need 1 name name := by
  unfold name
  apply Respects.production
  exact Respects.expectName

theorem nameList.respects : σ.Respects need 1 nameList nameList := by
  unfold nameList
  apply Respects.production
  exact Respects.commaSeparated name.respects

theorem qualifiedName.respects : σ.Respects need 1 qualifiedName qualifiedName := by
  unfold qualifiedName
  apply Respects.production
  exact Respects.expectName.seq nameParts.respects

theorem columnReference.respects : σ.Respects need 1 columnReference columnReference := by
  unfold columnReference
  apply Respects.production
  apply Respects.seq Respects.expectName
  apply Respects.seq nameParts.respects
  exact Respects.ifSees_firm (Respects.bumpN 2).loose

theorem anyName.respects (what : String) : σ.Respects need 1 (anyName what) (anyName what) := by
  unfold anyName
  exact (Respects.expectIf _).seq nameParts.respects

theorem optionalAlias.respects : σ.Respects need 0 optionalAlias optionalAlias := by
  unfold optionalAlias
  apply Respects.ifSees
  apply Respects.production
  apply Respects.seq (Respects.optionalKeyword _)
  apply Respects.seq name.respects.loose
  apply Respects.ifSees
  exact (Respects.parenthesized nameList.respects).loose

theorem typeName.respects : σ.Respects need 1 typeName typeName := by
  unfold typeName
  apply Respects.production
  have hend : σ.Respects 0 0
      (do
        Parser.ifSees (·.isKind 0 .leftParen) Parser.bumpGroup
        Parser.ifSees (fun a => (a.isKeyword 0 .WITH || a.isWord 0 "WITHOUT") &&
          a.isWord 1 "TIME" && a.isWord 2 "ZONE") (Parser.bumpN 3)
        Parser.whileSees (·.isKind 0 .leftBracket) Parser.bumpGroup)
      (do
        Parser.ifSees (·.isKind 0 .leftParen) Parser.bumpGroup
        Parser.ifSees (fun a => (a.isKeyword 0 .WITH || a.isWord 0 "WITHOUT") &&
          a.isWord 1 "TIME" && a.isWord 2 "ZONE") (Parser.bumpN 3)
        Parser.whileSees (·.isKind 0 .leftBracket) Parser.bumpGroup) := by
    apply Respects.seq
    · apply Respects.ifSees
      exact Respects.bumpGroup.loose
    apply Respects.seq
    · exact Respects.ifSees_firm (n := 3) (Respects.bumpN 3).loose
    · exact Respects.whileSees (n := 1) Respects.bumpGroup
  apply Respects.sees_ite_firm (n := 2)
  · apply Respects.seq _ hend
    exact (Respects.bumpN 2).weaken (Nat.le_refl _) (by omega)
  · exact (anyName.respects _).seq hend

theorem overClause.respects : σ.Respects 1 1 overClause overClause := by
  unfold overClause
  apply Respects.production
  apply Respects.seq Respects.bump
  apply Respects.sees_ite
  · exact Respects.bumpGroup.loose
  · exact Respects.expectName.loose

theorem intervalLiteral.respects : σ.Respects 2 1 intervalLiteral intervalLiteral := by
  unfold intervalLiteral
  apply Respects.production
  apply Respects.seq
  · exact (Respects.bumpN 2).weaken (Nat.le_refl _) (by omega)
  · exact Respects.whileSees Respects.bump

theorem array.respects : σ.Respects 1 1 array array := by
  unfold array
  apply Respects.production
  exact Respects.bump.seq Respects.bumpGroup.loose

theorem nameDots.outcome {s s' : ParserState Rule} (hs : σ.rel s s')
    (hparts : partsThenParen (σ.small.ahead s.rest)) :
    σ.Outcome (fun _ t t' => σ.After 0 s t t')
      (Parser.whileSees (·.isKind 0 .dot) (Parser.bumpN 2) σ.small s)
      (Parser.whileSees (·.isKind 0 .dot) (Parser.bumpN 2) σ.large s') := by
  unfold Parser.whileSees Parser.repeatWhile
  apply Outcome.discard
  have hforward : Parser.Forward (do
      if ← Parser.sees (·.isKind 0 .dot) then
        Parser.bumpN 2
        return true
      else
        return false : Parser Rule Bool) :=
    .sees_ite ((Parser.Forward.bumpN 2).bind fun _ => .pure true) (.pure false)
  apply Outcome.iterate
    (J := fun _ t t' => σ.After 0 s t t' ∧ partsThenParen (σ.small.ahead t.rest)) _
    (fun _ _ => hforward.bind fun _ => .pure _) hs ⟨After.refl hs, hparts⟩
  rintro _ t t' ⟨ht, hparts⟩
  have hdot := (σ.sees ht.rel).ask (·.isKind 0 .dot) (.inl (Nat.zero_le _))
  apply Outcome.bind (Q := fun (more : Bool) u u' => σ.After (if more then 1 else 0) t u u' ∧
    (more → partsThenParen (σ.small.ahead u.rest))) _ _ fun _ _ => .pure _
  · rw [Parser.sees_bind, Parser.sees_bind, hdot]
    split
    · have hpos := partsExtent_pos hparts ‹_›
      have hlong : 2 ≤ reach t.rest :=
        Nat.le_trans (partsExtent_eq_add hpos ▸ Nat.le_add_left _ _) (partsExtent_le_reach t.rest)
      have hdrop := partsThenParen_drop hparts ‹_›
      apply (Respects.bumpN 2 ht.rel hlong).and_ok.bind _ fun _ _ => .pure true
      rintro _ u u' ⟨hok, hu⟩
      obtain ⟨v, hv, hrest⟩ := Parser.bumpN_ok (c := σ.small) 2 t
      cases hok.symm.trans hv
      apply Outcome.ok
      exact ⟨hu.weaken (by decide), fun _ => hrest ▸ hdrop⟩
    · exact .ok ⟨After.refl ht.rel, fun h => by contradiction⟩
  · rintro more u u' ⟨hu, hparts⟩
    apply Outcome.ok
    cases more with
    | false => exact ht.trans hu
    | true =>
      have := hu.took.length_le
      exact ⟨⟨(ht.trans hu).weaken (Nat.zero_le _), hparts rfl⟩, by simp at this; omega⟩

theorem literal.outcome {s s' : ParserState Rule} (hs : σ.rel s s') (hreach : 1 ≤ reach s.rest)
    (hsign : (σ.small.ahead s.rest).hasLiteralSign → 2 ≤ reach s.rest) :
    σ.Outcome (fun _ t t' => σ.After 1 s t t') (literal σ.small s) (literal σ.large s') := by
  unfold literal
  apply Outcome.production _ hs
  intro t t' ht hrest
  rw [← hrest] at hreach hsign
  exact Outcome.literal ht hreach hsign

theorem literal.forward : Parser.Forward literal :=
  .production _ literalParts.forward

def callArguments : Parser Rule Unit := do
  Parser.bumpGroup
  Parser.ifSees (fun a => a.isWord 0 "WITHIN" && a.isKeyword 1 .GROUP) do
    Parser.bumpN 2
    Parser.bumpGroup
  Parser.ifSees (fun a => a.isWord 0 "FILTER" && a.isKind 1 .leftParen) do
    Parser.bump
    Parser.bumpGroup
  Parser.ifKeyword .OVER overClause

theorem callArguments.respects : σ.Respects need 0 callArguments callArguments := by
  unfold callArguments
  apply Respects.seq Respects.bumpGroup.loose
  apply Respects.seq
  · apply Respects.ifSees
    exact (Respects.bumpN_before 2 Respects.bumpGroup).loose
  apply Respects.seq
  · apply Respects.ifSees
    exact (Respects.bump_before Respects.bumpGroup).loose
  · exact Respects.ifKeyword _ overClause.respects.loose

theorem call_eq :
    call = Parser.production .funcExpr (do
      Parser.bump
      Parser.whileSees (·.isKind 0 .dot) (Parser.bumpN 2)
      callArguments) :=
  rfl

theorem call.forward : σ.Forward call := by
  intro hb
  rw [call_eq]
  apply Parser.Forward.production
  apply Parser.Forward.bump.bind
  intro _
  apply (Parser.Forward.whileSees _ (.bumpN 2)).bind
  intro _
  exact callArguments.respects.onward hb

theorem call.outcome {s s' : ParserState Rule} (hs : σ.rel s s')
    (hcall : (argumentsAt? (σ.small.ahead s.rest) 0).isSome) :
    σ.Outcome (fun _ t t' => σ.After 1 s t t') (call σ.small s) (call σ.large s') := by
  rw [call_eq]
  apply Outcome.production _ hs
  intro t t' ht hrest
  rw [← hrest] at hcall
  have hparts : partsThenParen (σ.small.ahead t.advance.rest) := by
    rw [ParserState.rest_advance, ← List.drop_one]
    exact partsThenParen_of_argumentsAt? hcall
  rw [argumentsAt?_eq] at hcall
  split at hcall
  · rename_i hopened
    rw [Bool.and_eq_true] at hopened
    have hreach := Firm.le_reach (n := 1) (q := (isFunctionName · 0)) (σ.sees ht).stop hopened.1
    have hafter := (Respects.advance (n := 0) ht hreach).1
    rw [Parser.bind_ok Parser.bump_eq, Parser.bind_ok Parser.bump_eq]
    have harguments : σ.Respects 0 0 callArguments callArguments := callArguments.respects
    apply (nameDots.outcome hafter.rel hparts).bind _ fun _ => harguments.forward
    intro _ u u' hu
    apply (harguments hu.rel (Nat.zero_le _)).mono
    intro _ v v' hv
    exact (hafter.trans hu).trans hv
  · contradiction

theorem named.respects : σ.Respects need 1 named named where
  run s s' hs _ := by
    have hsees := σ.sees hs
    have h₀ : Covers (σ.small.ahead s.rest) (σ.large.ahead s'.rest) 0 := .inl (Nat.zero_le _)
    unfold named
    rw [Parser.ahead_bind, Parser.ahead_bind, hsees.ask startsBareCall h₀,
      hsees.ask (argumentsAt? · 0) h₀, hsees.ask (·.isName 0) h₀]
    split
    · have hreach := Firm.le_reach (n := 1) (q := startsBareCall) hsees.stop ‹_›
      exact Respects.production _ Respects.bump hs hreach
    split
    · exact call.outcome hs ‹_›
    split
    · exact columnReference.respects hs (Nat.zero_le _)
    · exact .expected _ hs
  forward hb := by
    apply Parser.Forward.ahead_bind
    intro a
    apply Parser.Forward.ite
    · exact .production _ .bump
    apply Parser.Forward.ite
    · exact call.forward hb
    apply Parser.Forward.ite
    · exact columnReference.respects.onward hb
    · exact .expected _

structure Nests (σ : Simulation Rule) (nested nested' : Goal → Parser Rule Unit) : Prop where
  query : σ.Respects 0 1 (nested .query) (nested' .query)
  queryGroup : σ.Respects 0 1 (nested .queryGroup) (nested' .queryGroup)
  condition (least : Nat) :
    σ.Respects 0 1 (nested (.condition least)) (nested' (.condition least))
  predicate (least : Nat) :
    σ.Respects 0 1 (nested (.predicate least)) (nested' (.predicate least))
  test (test : Test) {m m' : Nat} (hm : σ.mark m m') (least : Nat) :
    σ.Respects 1 0 (nested (.test test m least)) (nested' (.test test m' least))
  operand (least : Nat) : σ.Respects 0 1 (nested (.operand least)) (nested' (.operand least))
  suffix (suffix : Suffix) {m m' : Nat} (hm : σ.mark m m') (least : Nat) :
    σ.Respects suffix.extent 0 (nested (.suffix suffix m least)) (nested' (.suffix suffix m' least))
  source : σ.Respects 0 1 (nested .source) (nested' .source)
  deep : σ.Deep σ.small.limit (nested .query)

namespace Nests

variable {nested nested' : Goal → Parser Rule Unit} (h : Nests σ nested nested')

include h

theorem expression : σ.Respects 0 1 (nested .expression) (nested' .expression) :=
  h.condition 0

theorem respects_expressionList :
    σ.Respects need 1 (expressionList nested) (expressionList nested') := by
  unfold expressionList
  exact Respects.commaSeparated h.expression

theorem respects_prefixed : σ.Respects 1 1 (prefixed nested) (prefixed nested') := by
  unfold prefixed
  apply Respects.production
  apply Respects.seq Respects.bump
  exact (h.operand _).loose

theorem respects_group : σ.Respects 1 1 (group nested) (group nested') := by
  have hquery : σ.Respects 0 1
      (Parser.production .cExprSubquery (Parser.parenthesized (nested .query)))
      (Parser.production .cExprSubquery (Parser.parenthesized (nested' .query))) :=
    Respects.production _ (Respects.parenthesized h.query)
  have hlist : σ.Respects 0 1
      (Parser.production .cExprNested (Parser.parenthesized (expressionList nested)))
      (Parser.production .cExprNested (Parser.parenthesized (expressionList nested'))) :=
    Respects.production _ (Respects.parenthesized h.respects_expressionList)
  have hdeep : σ.Deep (σ.small.limit + 1)
      (Parser.production .cExprSubquery (Parser.parenthesized (nested .query))) :=
    h.deep.parenthesized.production
  constructor
  · intro s s' hs hreach
    have hsees := σ.sees hs
    have h₁ : Covers (σ.small.ahead s.rest) (σ.large.ahead s'.rest) 1 :=
      .inl (Nat.le_trans hreach (reach_le_length _))
    unfold group
    rw [Parser.ahead_bind, Parser.ahead_bind, hsees.ask (·.isOneOf 1 [.WITH, .VALUES]) h₁]
    obtain heq | ⟨hlimit, hparens, hopens⟩ :=
      hsees.opensSubquery (n := 0) (.inl (Nat.zero_le _)) [.SELECT]
    · rw [heq]
      split
      · exact hquery hs (Nat.zero_le _)
      split
      · exact Respects.production _ Respects.bumpGroup hs (Nat.zero_le _)
      · exact hlist hs (Nat.zero_le _)
    · rw [if_pos hopens]
      exact .of_error (hdeep hlimit s hparens)
  · intro hb
    apply Parser.Forward.ahead_bind
    intro a
    apply Parser.Forward.ite (hquery.forward hb)
    exact .ite (.production _ .bumpGroup) (hlist.forward hb)

theorem respects_row : σ.Respects 1 1 (row nested) (row nested') := by
  unfold row
  apply Respects.production
  apply Respects.seq Respects.bump
  apply Respects.loose
  apply Respects.parenthesized
  apply Respects.ifSees
  exact h.respects_expressionList.loose

theorem respects_existence : σ.Respects 1 1 (existence nested) (existence nested') := by
  unfold existence
  apply Respects.production
  apply Respects.seq Respects.bump
  exact (Respects.parenthesized h.query).loose

omit h in
theorem literal_of_kind {s s' : ParserState Rule} (hs : σ.rel s s') {kind : TokenKind}
    (hkind : (σ.small.ahead s.rest).kind 0 = kind) (hend : ¬kind.isEnd)
    (hsign : (kind.alike .minus || kind.alike .plus || kind.alike (.identifier "")) = false) :
    σ.Outcome (fun _ t t' => σ.After 1 s t t') (literal σ.small s) (literal σ.large s') := by
  apply literal.outcome hs (one_le_reach hs (hkind ▸ hend))
  intro h
  unfold Lookahead.hasLiteralSign Lookahead.isKind at h
  rw [hkind, hsign] at h
  contradiction

omit h in
theorem literal_of_next {s s' : ParserState Rule} (hs : σ.rel s s') (hreach : 1 ≤ reach s.rest)
    {q : Lookahead → Bool} [Rejects 1 q] (hq : q (σ.small.ahead s.rest)) :
    σ.Outcome (fun _ t t' => σ.After 1 s t t') (literal σ.small s) (literal σ.large s') := by
  apply literal.outcome hs hreach
  intro _
  exact Lookahead.lt_reach_of_kind (σ.sees hs).stop hreach (Rejects.not_isEnd hq)

theorem signed {s s' : ParserState Rule} (hs : σ.rel s s') (hreach : 1 ≤ reach s.rest) :
    σ.Outcome (fun _ t t' => σ.After 1 s t t')
      ((if (σ.small.ahead s.rest).isKind 1 .integer || (σ.small.ahead s.rest).isKind 1 .float then
        literal else prefixed nested) σ.small s)
      ((if (σ.small.ahead s.rest).isKind 1 .integer || (σ.small.ahead s.rest).isKind 1 .float then
        literal else prefixed nested') σ.large s') := by
  split
  · exact literal_of_next hs hreach (q := fun a => a.isKind 1 .integer || a.isKind 1 .float) ‹_›
  · exact h.respects_prefixed hs hreach

omit h in
theorem introduced {s s' : ParserState Rule} (hs : σ.rel s s') (hreach : 1 ≤ reach s.rest) :
    σ.Outcome (fun _ t t' => σ.After 1 s t t')
      ((if (σ.small.ahead s.rest).isKind 1 .string then literal else named) σ.small s)
      ((if (σ.small.ahead s.rest).isKind 1 .string then literal else named) σ.large s') := by
  split
  · exact literal_of_next hs hreach (q := (·.isKind 1 .string)) ‹_›
  · exact named.respects hs (Nat.zero_le _)

theorem respects_primary : σ.Respects 0 1 (primary nested) (primary nested') where
  run s s' hs _ := by
    have hsees := σ.sees hs
    unfold primary
    rw [Parser.ahead_bind, Parser.ahead_bind]
    obtain heq | ⟨name, name', hname, hname', -⟩ | ⟨heof, hsemi⟩ :=
      hsees.kind (n := 0) (.inl (Nat.zero_le _))
    · rw [heq]
      by_cases hend : ((σ.small.ahead s.rest).kind 0).isEnd
      · obtain heof | hsemi := hend
        · rw [heof]
          exact named.respects hs (Nat.zero_le _)
        · rw [hsemi]
          exact named.respects hs (Nat.zero_le _)
      have hreach := one_le_reach hs hend
      have h₁ : Covers (σ.small.ahead s.rest) (σ.large.ahead s'.rest) 1 :=
        .inl (Nat.le_trans hreach (reach_le_length _))
      have hnumber := hsees.ask (fun a => a.isKind 1 .integer || a.isKind 1 .float) h₁
      have hstring := hsees.ask (·.isKind 1 .string) h₁
      have hparen := hsees.ask (·.isKind 1 .leftParen) h₁
      have hbracket := hsees.ask (·.isKind 1 .leftBracket) h₁
      generalize hkind : (σ.small.ahead s.rest).kind 0 = kind at hend
      simp only [hnumber, hstring, hbracket, hparen]
      split
      · exact literal_of_kind hs hkind hend rfl
      · exact literal_of_kind hs hkind hend rfl
      · exact literal_of_kind hs hkind hend rfl
      · exact literal_of_kind hs hkind hend rfl
      · exact literal_of_kind hs hkind hend rfl
      · exact h.signed hs hreach
      · exact h.signed hs hreach
      · exact h.respects_prefixed hs hreach
      · exact h.respects_prefixed hs hreach
      · exact introduced hs hreach
      · exact Respects.production _ Respects.bump hs hreach
      · exact h.respects_group hs hreach
      · split
        · exact literal_of_kind hs hkind hend rfl
        · exact literal_of_kind hs hkind hend rfl
        · exact literal_of_kind hs hkind hend rfl
        · split
          · rename_i hstring
            have hreach := Lookahead.lt_reach_of_kind hsees.stop hreach
              (Rejects.not_isEnd (q := (·.isKind 1 .string)) hstring)
            exact intervalLiteral.respects hs hreach
          · exact named.respects hs (Nat.zero_le _)
        · split
          · exact h.respects_row hs hreach
          · exact named.respects hs (Nat.zero_le _)
        · split
          · exact array.respects hs hreach
          · exact named.respects hs (Nat.zero_le _)
        · exact h.respects_existence hs hreach
        · exact Respects.production _ Respects.bumpCase hs (Nat.zero_le _)
        · exact named.respects hs (Nat.zero_le _)
      · exact named.respects hs (Nat.zero_le _)
    · have hreach := one_le_reach hs (by simp [hname, TokenKind.isEnd])
      rw [hname, hname', hsees.ask (·.isKind 1 .string) (.inl (Nat.le_trans hreach
        (reach_le_length _)))]
      exact introduced hs hreach
    · rw [heof, hsemi]
      exact named.respects hs (Nat.zero_le _)
  forward hb := by
    have hnamed := named.respects.onward hb
    apply Parser.Forward.ahead_bind
    intro a
    repeat' split
    all_goals first
      | exact literal.forward
      | exact hnamed
      | exact h.respects_prefixed.forward hb
      | exact .production _ .bump
      | exact h.respects_group.forward hb
      | exact intervalLiteral.respects.forward hb
      | exact h.respects_row.forward hb
      | exact array.respects.forward hb
      | exact h.respects_existence.forward hb
      | exact .production _ .bumpCase

theorem respects_operandTail {m m' : Nat} (hm : σ.mark m m') (least : Nat) :
    σ.Respects 0 0 (operandTail nested m least) (operandTail nested' m' least) := by
  unfold operandTail
  apply Respects.seq (.infixChain_kind hm least rfl rfl (fun _ => rfl) .bump h.operand)
  constructor
  · intro s s' hs _
    have hsees := σ.sees hs
    rw [Parser.sees_bind, Parser.sees_bind, hsees.ask (suffix? least) (.inl (Nat.zero_le _))]
    cases hsuffix : suffix? least (σ.small.ahead s.rest) with
    | none => exact .ok (After.refl hs)
    | some suffix => exact h.suffix suffix hm least hs (suffix?_le_reach hsees.stop hsuffix)
  · intro hb
    apply Parser.Forward.sees_bind
    intro suffix?
    cases suffix? with
    | none => exact .pure ()
    | some suffix => exact (h.suffix suffix hm least).forward hb

theorem respects_applySuffix (suffix : Suffix) {m m' : Nat} (hm : σ.mark m m') :
    σ.Respects suffix.extent 1 (applySuffix nested suffix m) (applySuffix nested' suffix m') := by
  unfold applySuffix
  cases suffix with
  | typecast =>
    apply Respects.productionAt hm
    exact Respects.seq Respects.bump typeName.respects.loose
  | subscript =>
    apply Respects.productionAt hm
    exact Respects.bumpGroup
  | field =>
    apply Respects.productionAt hm
    exact (Respects.bumpN 2).weaken (Nat.le_refl _) (by omega)
  | collation =>
    apply Respects.productionAt hm
    exact Respects.seq Respects.bump (anyName.respects _).loose
  | timeZone =>
    apply Respects.productionAt hm
    apply Respects.seq
    · exact (Respects.bumpN 3).weaken (Nat.le_refl _) (by omega)
    · exact (h.operand _).loose

theorem respects_suffixedOperand (suffix : Suffix) {m m' : Nat} (hm : σ.mark m m') (least : Nat) :
    σ.Respects suffix.extent 0 (suffixedOperand nested suffix m least)
      (suffixedOperand nested' suffix m' least) := by
  unfold suffixedOperand
  apply Respects.seq (h.respects_applySuffix suffix hm).loose
  exact h.respects_operandTail hm least

theorem respects_operand (least : Nat) :
    σ.Respects 0 1 (Postgres.operand nested least) (Postgres.operand nested' least) := by
  unfold Postgres.operand
  apply Respects.checkpoint_bind
  intro m m' hm
  apply Respects.seq h.respects_primary
  exact h.respects_operandTail hm least

end Nests

end SqlScript.Postgres
