import SqlScript.Proofs.MySql.Call
import SqlScript.Proofs.MySql.Source
import SqlScript.MySql.Query

/-!
Queries of MySQL in two runs. Where a call at the end of the first text goes on in the second, the
first run fails.
-/

namespace SqlScript.MySql

open SqlScript.Simulation

variable {σ : Simulation Rule} {need : Nat}

instance : Steady 0 startsUnion where
  eq := by
    intro a a' hs _
    apply hs.topLevelAny
    exact fun t t' hk => Token.isKeyword_congr hk .UNION

theorem starElement.respects (n : Nat) : σ.Respects (n + 1) 1 (starElement n) (starElement n) := by
  unfold starElement
  apply Respects.production
  cases n with
  | zero => exact Respects.bump
  | succ n =>
    have hforward : Parser.Forward (do Parser.bump; Parser.bump : Parser Rule Unit) :=
      Parser.Forward.bump.bind fun _ => .bump
    constructor
    · intro s s' hs hreach
      apply (Respects.production_bumpN (n := n) (k := 2) _ hs hreach).bind _ fun _ _ => hforward
      rintro _ t t' ⟨ht, hreach⟩
      obtain ⟨hfirst, hreach⟩ := Respects.advance (n := 1) ht.rel hreach
      obtain ⟨hsecond, -⟩ := Respects.advance (n := 0) hfirst.rel hreach
      exact .ok (((ht.trans hfirst).trans hsecond).weaken (by omega))
    · exact fun _ => (Parser.Forward.production _ (.bumpN n)).bind fun _ => hforward

theorem columnEnds_of_sees {a a' : Lookahead} (hs : Sees a a') :
    (columnExtent? a').any (elementEndsAt a') = (columnExtent? a).any (elementEndsAt a) := by
  rw [hs.ask columnExtent? (.inl (Nat.zero_le _))]
  cases h : columnExtent? a with
  | none => rfl
  | some n =>
    have hle := Nat.le_trans (columnExtent?_le_reach hs.stop h) (reach_le_length _)
    exact hs.ask (elementEndsAt · n) (.inl hle)

theorem elementEndsAt_of_length_le {a : Lookahead} (hstop : a.stop.kind = .eof) {n : Nat}
    (hn : a.rest.length ≤ n) : elementEndsAt a n := by
  have hkind : a.kind n = .eof := by
    unfold Lookahead.kind
    rw [Lookahead.token_of_le hn, hstop]
  unfold elementEndsAt
  rw [hkind]

theorem callEnds_of_sees {a a' : Lookahead} (hs : Sees a a') :
    (callExtent? a' 0).any (elementEndsAt a') = (callExtent? a 0).any (elementEndsAt a) ∨
      a.rest.length ≠ a'.rest.length ∧ EndsWithOver a ∧
        (callExtent? a 0).any (elementEndsAt a) ∨
      CaseReachesOut a a' 0 := by
  obtain heq | hout := callExtent?_of_sees hs
  · rw [heq]
    cases hcall : callExtent? a 0 with
    | none => exact .inl rfl
    | some n =>
      by_cases hn : n ≤ a.rest.length
      · exact .inl (hs.ask (n := n) (elementEndsAt · n) (.inl hn))
      by_cases hlen : a.rest.length = a'.rest.length
      · exact .inl (hs.ask (n := n) (elementEndsAt · n) (.inr hlen))
      · have hover := (callExtent?_le hs.stop hcall).resolve_left hn
        exact .inr (.inl ⟨hlen, hover, elementEndsAt_of_length_le hs.stop (Nat.le_of_not_le hn)⟩)
  · exact .inr (.inr hout)

theorem columnEnds_of_leftParen {a : Lookahead} (hkind : a.kind (argumentsOpen a) = .leftParen) :
    (columnExtent? a).any (elementEndsAt a) = false := by
  have hextent : nameExtent a 0 = argumentsOpen a := by
    unfold nameExtent nameExtent.hasPart
    unfold argumentsOpen at hkind ⊢
    split
    · rename_i hdot
      rw [if_pos hdot] at hkind
      have hparen : a.isKind (0 + 3) .dot = false := by
        rw [Lookahead.isKind, hkind]
        rfl
      rw [hparen, Bool.false_and, if_neg Bool.false_ne_true]
    · rfl
  have hends : elementEndsAt a (nameExtent a 0) = false := by
    rw [hextent]
    unfold elementEndsAt
    rw [hkind, Lookahead.isName, hkind]
    simp [Lookahead.isOneOf_of_leftParen hkind]
  unfold columnExtent?
  split
  · exact hends
  · rfl

theorem EndsWithOver.columnEnds {a : Lookahead} (h : EndsWithOver a) :
    (columnExtent? a).any (elementEndsAt a) = false :=
  columnEnds_of_leftParen h.kind_argumentsOpen

def callElement : Parser Rule Unit :=
  Parser.production .selectFunctionElement do
    functionCall
    optionalAlias

theorem callElement.respects : σ.Respects 1 1 callElement callElement := by
  unfold callElement
  apply Respects.production
  exact functionCall.respects.seq optionalAlias.respects

theorem callElement_error {c : Setting} {s : ParserState Rule} (hstop : c.stop.kind = .eof)
    (h : EndsWithOver (c.ahead s.rest)) : ∃ f t, callElement c s = .error f t := by
  cases hcall : functionCall c (s.build (·.start .selectFunctionElement)) with
  | ok a t => exact absurd hcall (functionCall_ne_ok hstop h)
  | error f t => exact ⟨f, t, Parser.production_error (Parser.bind_error hcall)⟩

namespace Nests

variable {nested nested' : Goal → Parser Rule Unit} (h : Nests σ nested nested')

include h

/-- What the second run reads where the first one misses the name of a window is not read by the
first. -/
theorem windowless_plainElement {s s' : ParserState Rule} (hs : σ.rel s s')
    (hover : EndsWithOver (σ.small.ahead s.rest))
    (hcall : (callExtent? (σ.small.ahead s.rest) 0).isSome) (hbehind : σ.behind.isSome) :
    σ.Gone (plainElement nested' σ.large s') := by
  have hsees := σ.sees hs
  unfold plainElement
  rw [Parser.ahead_bind, columnEnds_of_sees hsees, hover.columnEnds]
  split
  · have hreach := Firm.le_reach (n := 1) (q := fun a => (callExtent? a 0).isSome) hsees.stop hcall
    have hrespects := callElement.respects hs hreach
    obtain ⟨f, t, hf⟩ := callElement_error (c := σ.small) hsees.stop hover
    rw [hf] at hrespects
    exact hrespects.gone_of_error hbehind
  · have hrespects := Respects.production .selectExpressionElement
      (h.expression.seq optionalAlias.respects) hs (Nat.zero_le _)
    obtain ⟨f, t, hf, -⟩ := h.windowless hsees.stop (s.build (·.start .selectExpressionElement)) hover
    rw [Parser.production_error (Parser.bind_error hf)] at hrespects
    exact hrespects.gone_of_error hbehind

theorem respects_plainElement :
    σ.Respects 0 1 (plainElement nested) (plainElement nested') where
  run s s' hs _ := by
    have hsees := σ.sees hs
    obtain heq | ⟨hlen, hover⟩ | hout := callEnds_of_sees hsees
    · unfold plainElement
      rw [Parser.ahead_bind, Parser.ahead_bind, columnEnds_of_sees hsees, heq]
      split
      · rename_i hcall
        rw [Option.any_eq_true] at hcall
        obtain ⟨n, hcall, -⟩ := hcall
        have hreach := Firm.le_reach (n := 1) (q := fun a => (callExtent? a 0).isSome) hsees.stop
          (by simp [hcall])
        exact callElement.respects hs hreach
      split
      · apply Respects.production _ _ hs (Nat.zero_le _)
        exact columnName.respects.seq optionalAlias.respects
      · apply Respects.production _ _ hs (Nat.zero_le _)
        exact h.expression.seq optionalAlias.respects
    · obtain hexcused | hcomplete := (σ.lenient hs).resolve_left hlen
      · unfold plainElement
        rw [Parser.ahead_bind, if_pos hover.2]
        obtain ⟨f, t, hf⟩ := callElement_error hsees.stop hover.1
        exact .of_error ⟨f, t, hf, hexcused f⟩
      · obtain ⟨n, hcall, -⟩ := (Option.any_eq_true ..).1 hover.2
        obtain ⟨k, hk, -⟩ := hcomplete.behind
        exact .gone (h.windowless_plainElement hs hover.1 (by simp [hcall])
          (Option.isSome_iff_exists.2 ⟨k, hk⟩))
    · have hcolumn : columnExtent? (σ.small.ahead s.rest) = none := by
        unfold columnExtent?
        rw [isName_of_case hout.isCase h.reserved]
        rfl
      unfold plainElement
      rw [Parser.ahead_bind, callExtent?_of_case hout.isCase hout.isOpen, hcolumn]
      obtain ⟨f, t, hf, -⟩ :=
        h.caseless (s.build (·.start .selectExpressionElement)) hout.isCase hout.isOpen
      exact .of_error ⟨f, t, Parser.production_error (Parser.bind_error hf),
        h.excused_of_case hs hout f⟩
  forward hb := by
    have halias := optionalAlias.respects.onward hb
    apply Parser.Forward.ahead_bind
    intro a
    apply Parser.Forward.ite
    · exact callElement.respects.forward hb
    apply Parser.Forward.ite
    · exact .production _ ((columnName.respects.onward hb).bind fun _ => halias)
    · exact .production _ ((h.expression.forward hb).bind fun _ => halias)

theorem respects_selectElement :
    σ.Respects 0 1 (selectElement nested) (selectElement nested') where
  run s s' hs _ := by
    have hsees := σ.sees hs
    unfold selectElement
    rw [Parser.sees_bind, Parser.sees_bind, hsees.ask starExtent? (.inl (Nat.zero_le _))]
    cases hstar : starExtent? (σ.small.ahead s.rest) with
    | none => exact h.respects_plainElement hs (Nat.zero_le _)
    | some n => exact starElement.respects n hs (starExtent?_lt_reach hsees.stop hstar)
  forward hb := by
    apply Parser.Forward.sees_bind
    intro star?
    cases star? with
    | none => exact h.respects_plainElement.forward hb
    | some n => exact (starElement.respects n).forward hb

theorem respects_selectElements :
    σ.Respects need 1 (selectElements nested) (selectElements nested') := by
  unfold selectElements
  apply Respects.production
  apply Respects.commaSeparatedFrom _ h.respects_selectElement.loose
  exact Respects.eatIf_bind (Respects.pure ()) h.respects_selectElement.lift (Nat.le_refl 1)

theorem respects_fromClause : σ.Respects need 0 (fromClause nested) (fromClause nested') := by
  unfold fromClause
  apply Respects.production
  apply Respects.seq
  · apply Respects.afterKeyword
    exact h.respects_tableSources.loose
  · exact h.respects_whereCondition

theorem respects_querySpecification (withTail : Bool) :
    σ.Respects need 1 (querySpecification nested withTail) (querySpecification nested' withTail) := by
  unfold querySpecification
  apply Respects.production
  apply Respects.seq (Respects.expectKeyword _)
  apply Respects.seq
  · exact Respects.whileSees (Respects.production _ Respects.bump)
  apply Respects.seq h.respects_selectElements.loose
  apply Respects.seq (Respects.ifKeyword _ intoClause.respects.loose)
  apply Respects.seq (Respects.ifSees h.respects_fromClause)
  apply Respects.seq (Respects.ifKeyword _ h.respects_groupByClause.loose)
  apply Respects.seq (Respects.ifKeyword _ h.respects_havingClause.loose)
  apply Respects.seq (Respects.ifKeyword _ windowClause.respects.loose)
  cases withTail with
  | true =>
    apply Respects.seq h.respects_orderAndLimit
    exact Respects.ifKeyword _ intoClause.respects.loose
  | false => exact Respects.ifKeyword _ intoClause.respects.loose

theorem respects_unionOperand : σ.Respects need 1 (unionOperand nested) (unionOperand nested') := by
  unfold unionOperand
  exact Respects.sees_ite h.queryGroup (h.respects_querySpecification false)

theorem respects_unionPart : σ.Respects 1 1 (unionPart nested) (unionPart nested') := by
  unfold unionPart
  apply Respects.production
  apply Respects.seq Respects.bump
  apply Respects.seq (Respects.optionalOneOf _)
  exact h.respects_unionOperand.loose

theorem respects_unionSelect : σ.Respects need 1 (unionSelect nested) (unionSelect nested') := by
  unfold unionSelect
  apply Respects.production
  apply Respects.seq h.respects_unionOperand
  apply Respects.seq (Respects.whileSees h.respects_unionPart)
  exact h.respects_selectTail

theorem respects_queryGroup : σ.Respects 0 1 (MySql.queryGroup nested) (MySql.queryGroup nested') := by
  unfold MySql.queryGroup
  apply Respects.production
  apply Respects.parenthesized
  apply Respects.sees_ite h.respects_unionSelect
  exact Respects.sees_ite h.queryGroup (h.respects_querySpecification true)

theorem respects_query : σ.Respects 0 1 (MySql.query nested) (MySql.query nested') := by
  unfold MySql.query
  apply Respects.sees_ite h.respects_unionSelect
  apply Respects.sees_ite
  · apply Respects.production
    exact h.queryGroup.seq h.respects_selectTail
  · apply Respects.production
    apply Respects.seq (h.respects_querySpecification true)
    exact Respects.ifSees_firm lockClause.respects.loose

end Nests

end SqlScript.MySql
