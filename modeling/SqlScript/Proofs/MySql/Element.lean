import SqlScript.Proofs.Case
import SqlScript.Proofs.Excised.Statement
import SqlScript.Proofs.MySql.Heedless

/-!
Elements of select lists. An element that is nothing but a call or a column is told by what is ahead,
and taken without the parser of expressions. That parser would have taken the same.
-/

namespace SqlScript

open SqlScript.Simulation

namespace Parser

variable {ρ : Type} [DecidableEq ρ] {c : Setting} {s : ParserState ρ}

theorem infixChain_of_none {operator? : Lookahead → Option (InfixOperator ρ)}
    (h : operator? (c.ahead s.rest) = none) (checkpoint least : Nat) (sign : Parser ρ Unit)
    (operand : Nat → Parser ρ Unit) :
    infixChain checkpoint least operator? sign operand c s = .ok () s := by
  have hlink : infixChain.link checkpoint least operator? sign operand none c s = .ok none s := by
    unfold infixChain.link
    rw [sees_bind, h]
    rfl
  have hloop : iterate (infixChain.link checkpoint least operator? sign operand) none c s =
      .ok none s := by
    unfold iterate
    rw [ahead_bind]
    unfold iterate.go
    rw [bind_ok hlink]
    rfl
  unfold infixChain
  rw [bind_ok hloop]
  rfl

end Parser

namespace MySql

open SqlScript.Parser

/--
Does what is in front make more of the operand behind it: an operator, a collation, a test or a
connective?
-/
def goesOn (a : Lookahead) : Bool :=
  (operandOperator? (a.kind 0)).isSome || a.isKeyword 0 .COLLATE || (test? a).isSome ||
    startsTruthTest a || (connective? (a.kind 0)).isSome

def joiningKeywords : List Keyword := [
  .DIV, .MOD, .COLLATE, .NOT, .IN, .BETWEEN, .LIKE, .REGEXP, .RLIKE, .IS, .OR, .XOR, .AND]

def continues (kind : TokenKind) : Bool :=
  match kind with
  | .keyword word => joiningKeywords.contains word
  | _ => (operandOperator? kind).isSome || (connective? kind).isSome || isComparison kind

theorem goesOn_of_not_continues {a : Lookahead} (h : continues (a.kind 0) = false)
    (hsounds : (a.isWord 0 "SOUNDS" && a.isKeyword 1 .LIKE) = false)
    (hmember : (a.isWord 0 "MEMBER" && a.isKeyword 1 .OF) = false) : goesOn a = false := by
  unfold continues at h
  unfold goesOn test? startsTruthTest
  split at h
  · rename_i word hk
    simp only [joiningKeywords, List.contains_cons, List.contains_nil, Bool.or_false,
      Bool.or_eq_false_iff, beq_eq_false_iff_ne] at h
    have hsome : a.keyword? 0 = some word := by
      unfold Lookahead.kind at hk
      simp [Lookahead.keyword?, Token.keyword?, hk]
    have hkeyword : ∀ other, a.isKeyword 0 other = (word == other) := by
      intro other
      change (a.keyword? 0 == some other) = _
      rw [hsome]
      rfl
    simp [hk, hkeyword, hsome, h, hsounds, hmember, operandOperator?, connective?, isComparison]
  · rename_i hk
    have hother : ∀ word, a.isKeyword 0 word = false :=
      fun word => Bool.eq_false_iff.2 fun hword => hk word (Lookahead.kind_of_isKeyword hword)
    have hnone : a.keyword? 0 = none :=
      Option.eq_none_iff_forall_ne_some.2 fun word hword =>
        hk word (Lookahead.kind_of_isKeyword (beq_of_eq hword))
    simp only [Bool.or_eq_false_iff, Option.isSome_eq_false_iff, Option.isNone_iff_eq_none] at h
    simp [hother, hnone, h, hsounds, hmember]

theorem elementEndsAt_cases {a : Lookahead} {n : Nat} (h : elementEndsAt a n) :
    a.kind n ∈ [.comma, .rightParen, .semicolon, .eof, .string] ∨ a.isOneOf n elementEnds ∨
      (a.isName n ∧ (a.isWord n "SOUNDS" && a.isKeyword (n + 1) .LIKE) = false ∧
        (a.isWord n "MEMBER" && a.isKeyword (n + 1) .OF) = false) := by
  unfold elementEndsAt at h
  split at h
  case h_6 =>
    obtain hend | h := (Bool.or_eq_true _ _).mp h
    · exact .inr (.inl hend)
    · obtain ⟨h, hmember⟩ := (Bool.and_eq_true _ _).mp h
      obtain ⟨hname, hsounds⟩ := (Bool.and_eq_true _ _).mp h
      rw [Bool.not_eq_true'] at hsounds hmember
      exact .inr (.inr ⟨hname, hsounds, hmember⟩)
  all_goals
    left
    simp [*]

/-- Nothing goes on where an element may end: what goes on with a reserved word ends none, and a name
that starts a test is excepted. -/
theorem goesOn_of_elementEndsAt {a : Lookahead} (hdialect : a.dialect = .mySql)
    (h : elementEndsAt a 0) : goesOn a = false := by
  obtain hkind | hend | ⟨hname, hsounds, hmember⟩ := elementEndsAt_cases h
  · have hword : ∀ word, a.isWord 0 word = false := by
      intro word
      unfold Lookahead.kind at hkind
      simp only [List.mem_cons, List.not_mem_nil, or_false] at hkind
      unfold Lookahead.isWord Token.isWord
      obtain hk | hk | hk | hk | hk := hkind <;> rw [hk]
    apply goesOn_of_not_continues
    · simp only [List.mem_cons, List.not_mem_nil, or_false] at hkind
      obtain hk | hk | hk | hk | hk := hkind <;> rw [hk] <;> rfl
    · rw [hword, Bool.false_and]
    · rw [hword, Bool.false_and]
  · obtain ⟨word, hmem, hk⟩ : ∃ word ∈ elementEnds, a.kind 0 = .keyword word := by
      unfold Lookahead.isOneOf Token.isOneOf at hend
      split at hend
      · rename_i word hword
        exact ⟨word, by simpa using hend, Lookahead.kind_of_isKeyword (beq_of_eq hword)⟩
      · contradiction
    have hall : ∀ word ∈ elementEnds, continues (.keyword word) = false ∧
        Text.sameLetters word.spelling "SOUNDS" = false ∧
        Text.sameLetters word.spelling "MEMBER" = false := by decide +kernel
    obtain ⟨hcontinues, hsounds, hmember⟩ := hall word hmem
    have hword : ∀ text, a.isWord 0 text = Text.sameLetters word.spelling text := by
      intro text
      unfold Lookahead.isWord Token.isWord
      rw [show (a.token 0).kind = _ from hk]
    apply goesOn_of_not_continues
    · rw [hk, hcontinues]
    · rw [hword, hsounds, Bool.false_and]
    · rw [hword, hmember, Bool.false_and]
  · apply goesOn_of_not_continues _ hsounds hmember
    have hreserved : ∀ word ∈ joiningKeywords, Dialect.mySql.isReserved word := by decide
    unfold Lookahead.isName at hname
    split at hname
    · rename_i hk
      rw [hk]
      rfl
    · rename_i hk
      rw [hk]
      rfl
    · rename_i word hk
      rw [hk, Bool.eq_false_iff]
      intro hword
      rw [hdialect, hreserved word (List.contains_iff_mem.1 hword)] at hname
      contradiction
    · contradiction

variable {c : Setting} {s t : ParserState Rule}

theorem exists_attempt {depth : Nat} {goal : Goal} (h : parser depth goal c s = .ok () t) :
    ∃ nested, attempt nested goal c s = .ok () t ∧ ∃ depth, nested = parser depth := by
  cases depth with
  | zero => cases h
  | succ depth => exact ⟨_, h, depth, rfl⟩

theorem operand_ok {nested : Goal → Parser Rule Unit} {least : Nat}
    (h : operand nested least c s = .ok () t) :
    ∃ u, primary nested c s = .ok () u ∧ (goesOn (c.ahead u.rest) = false → t = u) := by
  rw [operand, checkpoint_bind] at h
  obtain ⟨_, u, hu, htail⟩ := bind_eq_ok h
  refine ⟨u, hu, fun hgoesOn => ?_⟩
  simp only [goesOn, Bool.or_eq_false_iff, Option.isSome_eq_false_iff, Option.isNone_iff_eq_none]
    at hgoesOn
  rw [operandTail, bind_ok (infixChain_of_none hgoesOn.1.1.1.1 _ _ _ _), ifSees_eq,
    hgoesOn.1.1.1.2, Bool.false_and] at htail
  cases htail
  rfl

theorem expression_ok {depth : Nat} (hnot : (c.ahead s.rest).isKeyword 0 .NOT = false)
    (h : parser depth .expression c s = .ok () t) :
    ∃ nested v u, v.rest = s.rest ∧ primary nested c v = .ok () u ∧
      (goesOn (c.ahead u.rest) = false → t.rest = u.rest) := by
  obtain ⟨_, h, depth, rfl⟩ := exists_attempt h
  change condition _ 0 c s = _ at h
  rw [condition, checkpoint_bind, sees_bind, hnot, if_neg Bool.false_ne_true] at h
  obtain ⟨_, w, hw, h⟩ := bind_eq_ok h
  rw [predicateExpression, checkpoint_bind] at hw
  obtain ⟨_, x, hx, hw⟩ := bind_eq_ok hw
  obtain ⟨_, hx, depth, rfl⟩ := exists_attempt hx
  change predicate _ 0 c s = _ at hx
  rw [predicate, checkpoint_bind] at hx
  obtain ⟨_, y, hy, hx⟩ := bind_eq_ok hx
  obtain ⟨z, hz, rfl⟩ := production_ok hy
  obtain ⟨nested, hz, -⟩ := exists_attempt hz
  obtain ⟨u, hu, hends⟩ := operand_ok hz
  refine ⟨nested, s.build _, u, rfl, hu, fun hgoesOn => ?_⟩
  obtain rfl : z = u := hends hgoesOn
  simp only [goesOn, Bool.or_eq_false_iff, Option.isSome_eq_false_iff, Option.isNone_iff_eq_none]
    at hgoesOn
  obtain ⟨⟨⟨-, htest⟩, htruth⟩, hconnective⟩ := hgoesOn
  rw [furtherTests, sees_bind, ParserState.rest_build, htest] at hx
  cases hx
  rw [sees_bind, ParserState.rest_build, htruth, if_neg Bool.false_ne_true] at hw
  cases hw
  cases (infixChain_of_none hconnective _ _ _ _).symm.trans h
  rfl

theorem elementEndsAt_drop (c : Setting) (ts : List Token) (k n : Nat) :
    elementEndsAt (c.ahead (ts.drop k)) n = elementEndsAt (c.ahead ts) (k + n) := by
  unfold elementEndsAt Lookahead.isOneOf Lookahead.isName Lookahead.isWord Lookahead.isKeyword
    Lookahead.kind Setting.ahead
  simp only [Lookahead.token_drop, Nat.add_assoc]

theorem functionCall_taken (hstop : c.stop.kind = .eof) {n : Nat}
    (hcases : (c.ahead s.rest).isKeyword 0 .CASE → Token.casesPaired 0 0 s.rest)
    (hn : callExtent? (c.ahead s.rest) 0 = some n) (hends : elementEndsAt (c.ahead s.rest) n)
    (h : functionCall c s = .ok () t) : t.rest = s.rest.drop n := by
  by_cases hcase : (c.ahead s.rest).isKeyword 0 .CASE
  · rw [callExtent?_eq, if_pos hcase] at hn
    obtain ⟨u, hu, rfl⟩ := production_ok h
    rw [sees_bind, ParserState.rest_build, if_pos hcase] at hu
    obtain ⟨-, us, hus, hextent⟩ := bumpCase_ok hstop hu
    rw [ParserState.rest_build] at hus hextent ⊢
    have hpaired := hcases hcase
    rw [hus] at hpaired
    rw [Lookahead.caseExtent?, if_pos hcase, List.drop_zero, Setting.rest_ahead,
      hextent (Token.casesPaired_left hpaired)] at hn
    cases hn
    rw [hus, List.drop_left]
  · exact (functionCall_ok_of_ends hstop hcase hn hends h).2

theorem optionalAlias_of_none (hAs : (c.ahead s.rest).isKeyword 0 .AS = false)
    (huid : startsUid (c.ahead s.rest) = false) : optionalAlias c s = .ok () s := by
  rw [optionalAlias, bind_ok (eatKeyword_of_not hAs), if_neg Bool.false_ne_true]
  exact ifSees_of_not huid

theorem bumpGroup_opens (h : (bumpGroup : Parser Rule Unit) c s = .ok () t) :
    (c.ahead s.rest).kind 0 = .leftParen ∨ (c.ahead s.rest).kind 0 = .leftBracket := by
  unfold bumpGroup at h
  rw [sees_bind] at h
  cases hk : (c.ahead s.rest).kind 0 <;> rw [hk] at h
  all_goals first | exact .inl rfl | exact .inr rfl | cases h

theorem elementEndsAt_of_opens {a : Lookahead} {n : Nat}
    (h : a.kind n = .leftParen ∨ a.kind n = .leftBracket) : elementEndsAt a n = false := by
  have hone : a.isOneOf n elementEnds = false := by
    unfold Lookahead.kind at h
    obtain h | h := h <;> simp [Lookahead.isOneOf, Token.isOneOf, Token.keyword?, h]
  unfold elementEndsAt Lookahead.isName
  rw [hone]
  obtain h | h := h <;> rw [h] <;> rfl

theorem functionCall_ne_ok_of_column (hdialect : c.dialect = .mySql) {m n : Nat}
    (hcolumn : columnExtent? (c.ahead s.rest) = some n) (hn : elementEndsAt (c.ahead s.rest) n)
    (hcall : callExtent? (c.ahead s.rest) 0 = some m) (hm : ¬elementEndsAt (c.ahead s.rest) m) :
    functionCall c s ≠ .ok () t := by
  intro h
  have hends : (columnExtent? (c.ahead s.rest)).any (elementEndsAt (c.ahead s.rest)) := by
    rw [hcolumn]
    exact hn
  unfold columnExtent? at hcolumn
  split at hcolumn
  · rename_i hname
    cases hcolumn
    have hcase : ¬(c.ahead s.rest).isKeyword 0 .CASE := by
      intro hcase
      rw [isName_of_case hcase (by rw [Setting.ahead, hdialect]; rfl)] at hname
      contradiction
    rw [callExtent?_eq, if_neg hcase] at hcall
    split at hcall
    · -- A function that is called by its name alone, in front of a dot.
      cases hcall
      unfold nameExtent at hn
      split at hn
      · rename_i hpart
        have hdot := ((Bool.and_eq_true _ _).mp hpart).1
        obtain ⟨u, v, hu, hv, -⟩ := functionCall_ok_of_name hcase (by rw [hdot, Bool.or_true]) h
        obtain ⟨_, w, hw, -⟩ := bind_eq_ok hv
        have hopens := bumpGroup_opens hw
        rw [hu, if_pos hdot, Lookahead.kind_drop] at hopens
        split at hn
        · rename_i hpart
          have hdot : (c.ahead s.rest).kind (3 + 0) = .dot :=
            TokenKind.eq_dot_of_alike ((Bool.and_eq_true _ _).mp hpart).1
          rw [hdot] at hopens
          obtain hopens | hopens := hopens <;> contradiction
        · rw [elementEndsAt_of_opens hopens] at hn
          contradiction
      · contradiction
    split at hcall
    · obtain ⟨close, hclose, -⟩ := Option.bind_eq_some_iff.1 hcall
      obtain ⟨first, hfirst, -⟩ := Option.bind_eq_some_iff.1 hclose
      have hparen := TokenKind.eq_leftParen_of_alike (Lookahead.isKind_of_matchingParen? hfirst)
      rw [columnEnds_of_leftParen hparen] at hends
      contradiction
    · contradiction
  · contradiction

theorem named_taken_of_column (hstop : c.stop.kind = .eof) (hdialect : c.dialect = .mySql) {n : Nat}
    (hcolumn : columnExtent? (c.ahead s.rest) = some n) (hn : elementEndsAt (c.ahead s.rest) n)
    (hcall : ¬(callExtent? (c.ahead s.rest) 0).any (elementEndsAt (c.ahead s.rest)))
    (h : named c s = .ok () t) : t.rest = s.rest.drop n := by
  unfold named at h
  rw [sees_bind] at h
  cases hextent : callExtent? (c.ahead s.rest) 0 with
  | some m =>
    rw [hextent] at h hcall
    obtain ⟨u, hu, -⟩ := production_ok h
    exact absurd hu (functionCall_ne_ok_of_column (s := s.build _) hdialect hcolumn hn hextent hcall)
  | none =>
    rw [hextent] at h
    change (sees (·.isName 0) >>= _) c s = _ at h
    rw [sees_bind] at h
    split at h
    · obtain ⟨u, hu, rfl⟩ := production_ok h
      obtain ⟨v, hv, -, hrest⟩ := columnName_ok (s := s.build _) hstop hcolumn
      cases hv.symm.trans hu
      exact hrest
    · cases h

theorem exists_named_of_expression {depth : Nat} (hdialect : c.dialect = .mySql)
    (hnamed : StartsNamed (c.ahead s.rest)) (h : parser depth .expression c s = .ok () t) :
    ∃ u v, u.rest = s.rest ∧ named c u = .ok () v ∧
      ∀ n, v.rest = s.rest.drop n → elementEndsAt (c.ahead s.rest) n → v.rest = t.rest := by
  obtain ⟨nested, u, v, hu, hprimary, hends⟩ := expression_ok (hnamed.not_isKeyword (by decide)) h
  rw [StartsNamed.primary_eq (by rwa [hu])] at hprimary
  refine ⟨u, v, hu, hprimary, fun n hv hn => (hends ?_).symm⟩
  apply goesOn_of_elementEndsAt hdialect
  rw [hv, elementEndsAt_drop]
  exact hn

theorem plainElement_of_expression {depth : Nat} (hstop : c.stop.kind = .eof)
    (hdialect : c.dialect = .mySql) (hdepth : depth ≤ c.limit)
    (hcases : (c.ahead s.rest).isKeyword 0 .CASE → Token.casesPaired 0 0 s.rest)
    (h : parser depth .expression c s = .ok () t)
    (hAs : (c.ahead t.rest).isKeyword 0 .AS = false) (huid : startsUid (c.ahead t.rest) = false) :
    ∃ u, plainElement (parser depth) c s = .ok () u ∧ u.rest = t.rest := by
  have hnests : Nests (moved Rule (.refl hstop : c.Like c) id) (parser depth) (parser depth) :=
    parser.nests_self hdialect hdepth
  -- Behind any of the three alternatives there is no alias to be taken.
  have helement : ∀ (rule : Rule) {p : Parser Rule Unit} {v : ParserState Rule},
      p c (s.build (·.start rule)) = .ok () v → v.rest = t.rest →
      ∃ u, production rule (do p; optionalAlias) c s = .ok () u ∧ u.rest = t.rest := by
    intro rule p v hv hrest
    rw [← hrest] at hAs huid
    have hbody : (do p; optionalAlias : Parser Rule Unit) c (s.build (·.start rule)) = .ok () v := by
      rw [bind_ok hv, optionalAlias_of_none hAs huid]
    exact ⟨v.build (·.finish), production_of_ok hbody, hrest⟩
  unfold plainElement
  rw [ahead_bind]
  by_cases hcall : (callExtent? (c.ahead s.rest) 0).any (elementEndsAt (c.ahead s.rest))
  · rw [if_pos hcall]
    obtain ⟨n, hn, hends⟩ := (Option.any_eq_true _ _).1 hcall
    have hsome : (callExtent? (c.ahead s.rest) 0).isSome := Option.isSome_of_eq_some hn
    obtain ⟨u, v, hu, hv, hrest⟩ :=
      exists_named_of_expression hdialect (StartsNamed.of_callExtent? hdialect hsome) h
    rw [named, sees_bind, hu, if_pos hsome] at hv
    obtain ⟨w, hw, rfl⟩ := production_ok hv
    have htaken := functionCall_taken (s := u.build (·.start .functionCallExpressionAtom)) hstop
      (hu ▸ hcases) (hu ▸ hn) (hu ▸ hends) hw
    have hpos := Firm.le_reach (n := 1) (a := c.ahead s.rest)
      (q := fun a => (callExtent? a 0).isSome) hstop hsome
    have hmoves : (moved Rule (.refl hstop : c.Like c) id).Respects 1 1 functionCall functionCall :=
      functionCall.respects
    obtain ⟨x, hx, hxrest⟩ :=
      hmoves.moves_id hstop hw (hu ▸ hpos) (s.build (·.start .selectFunctionElement)) hu.symm
    exact helement _ hx (hxrest.trans (hrest n (hu ▸ htaken) hends))
  · rw [if_neg hcall]
    by_cases hcolumn : (columnExtent? (c.ahead s.rest)).any (elementEndsAt (c.ahead s.rest))
    · rw [if_pos hcolumn]
      obtain ⟨n, hn, hends⟩ := (Option.any_eq_true _ _).1 hcolumn
      obtain ⟨u, v, hu, hv, hrest⟩ := exists_named_of_expression hdialect
        (StartsNamed.of_columnExtent? hdialect (Option.isSome_of_eq_some hn)) h
      have htaken := named_taken_of_column hstop hdialect (hu ▸ hn) (hu ▸ hends) (hu ▸ hcall) hv
      rw [hu] at htaken
      obtain ⟨w, hw, -, hwrest⟩ :=
        columnName_ok (s := s.build (·.start .selectColumnElement)) hstop hn
      exact helement _ hw (hwrest.trans (htaken.symm.trans (hrest n htaken hends)))
    · rw [if_neg hcolumn]
      have hmoves : (moved Rule (.refl hstop : c.Like c) id).Respects 0 1 (parser depth .expression)
          (parser depth .expression) := hnests.expression
      obtain ⟨v, hv, hvrest⟩ := hmoves.moves_id hstop h (Nat.zero_le _)
        (s.build (·.start .selectExpressionElement)) rfl
      exact helement _ hv hvrest

end MySql

end SqlScript
