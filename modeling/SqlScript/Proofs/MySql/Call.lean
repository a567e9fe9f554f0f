import SqlScript.Proofs.MySql.Operand

/-!
A call in front is taken as far as it is seen, and so is the name of a column. Where the text ends
with the `OVER` behind a call, the name of a window is missing.
-/

namespace SqlScript.MySql

open SqlScript.Parser

variable {c : Setting} {s t : ParserState Rule} {ts : List Token}

theorem overClause_ok (hstop : c.stop.kind = .eof) {close n : Nat}
    (hs : s.rest = ts.drop (close + 1))
    (hover : (c.ahead ts).isKeyword (close + 1) .OVER)
    (hn : windowExtent? (c.ahead ts) close = some n) (h : overClause c s = .ok () t) :
    n ≤ ts.length ∧ t.rest = ts.drop n := by
  obtain ⟨u, hu, rfl⟩ := production_ok h
  rw [windowExtent?, if_pos hover] at hn
  rw [bind_ok bump_eq, sees_bind] at hu
  have hrest : (s.build (·.start .overClause)).advance.rest = ts.drop (close + 2) := by
    rw [ParserState.rest_advance, ParserState.rest_build, hs, List.tail_drop]
  generalize (s.build (·.start .overClause)).advance = v at hu hrest
  rw [hrest, Lookahead.isKind_drop, Nat.add_zero] at hu
  rw [ParserState.rest_build]
  split at hu
  · rename_i hparen
    rw [if_pos hparen] at hn
    obtain ⟨end', hend, rfl⟩ := Option.map_eq_some_iff.1 hn
    obtain ⟨end'', hend', hrest'⟩ := bumpGroup_drop hrest hparen hstop hu
    cases hend.symm.trans hend'
    exact ⟨(Lookahead.lt_length_of_matchingParen? hend).2, hrest'⟩
  · rename_i hparen
    rw [if_neg hparen] at hn
    cases hn
    rw [expectName, expectIf_eq] at hu
    split at hu
    · rename_i hname
      cases hu
      have hlt : 0 < v.rest.length := by
        apply Lookahead.lt_length_of_kind (a := c.ahead v.rest) hstop
        intro heof
        rw [Lookahead.isName, heof] at hname
        contradiction
      rw [hrest, List.length_drop] at hlt
      rw [ParserState.rest_advance, hrest, List.tail_drop]
      exact ⟨by omega, rfl⟩
    · cases hu

def arguments : Parser Rule Unit := do
  bumpGroup
  ifSees (·.isWord 0 "AGAINST") do
    bump
    bumpGroup
  ifKeyword .OVER overClause

theorem arguments_ok (hstop : c.stop.kind = .eof) {k n : Nat} (hs : s.rest = ts.drop k)
    (hn : (((c.ahead ts).matchingParen? k).bind (againstClose? (c.ahead ts))).bind
      (windowExtent? (c.ahead ts)) = some n)
    (h : arguments c s = .ok () t) : n ≤ ts.length ∧ t.rest = ts.drop n := by
  obtain ⟨close, hclose, hwindow⟩ := Option.bind_eq_some_iff.1 hn
  obtain ⟨first, hfirst, hagainst⟩ := Option.bind_eq_some_iff.1 hclose
  obtain ⟨_, u, hu, h⟩ := bind_eq_ok h
  obtain ⟨_, v, hv, h⟩ := bind_eq_ok h
  obtain ⟨first', hfirst', hrest⟩ :=
    bumpGroup_drop hs (Lookahead.isKind_of_matchingParen? hfirst) hstop hu
  cases hfirst.symm.trans hfirst'
  have hrest : v.rest = ts.drop (close + 1) := by
    rw [ifSees_eq, hrest, Lookahead.isWord_drop, Nat.add_zero] at hv
    unfold againstClose? at hagainst
    split at hv
    · rename_i hword
      rw [if_pos hword] at hagainst
      rw [bind_ok bump_eq] at hv
      have hadvance : u.advance.rest = ts.drop (first + 2) := by
        rw [ParserState.rest_advance, hrest, List.tail_drop]
      obtain ⟨close', hclose', hrest⟩ :=
        bumpGroup_drop hadvance (Lookahead.isKind_of_matchingParen? hagainst) hstop hv
      cases hagainst.symm.trans hclose'
      exact hrest
    · rename_i hword
      rw [if_neg hword] at hagainst
      cases hagainst
      cases hv
      exact hrest
  have hlt := againstClose?_lt_length (Lookahead.lt_length_of_matchingParen? hfirst).2 hagainst
  rw [ifKeyword, ifSees_eq, hrest, Lookahead.isKeyword_drop, Nat.add_zero] at h
  split at h
  · rename_i hover
    exact overClause_ok hstop hrest hover hwindow h
  · rename_i hover
    rw [windowExtent?, if_neg hover] at hwindow
    cases hwindow
    cases h
    exact ⟨hlt, hrest⟩

theorem functionCall_ok_of_name (hcase : ¬(c.ahead s.rest).isKeyword 0 .CASE)
    (hname : (c.ahead s.rest).isKind 1 .leftParen || (c.ahead s.rest).isKind 1 .dot)
    (h : functionCall c s = .ok () t) :
    ∃ u v, u.rest = s.rest.drop (if (c.ahead s.rest).isKind 1 .dot then 3 else 1) ∧
      arguments c u = .ok () v ∧ t = v.build (·.finish) := by
  obtain ⟨v, hv, rfl⟩ := production_ok h
  rw [sees_bind, ParserState.rest_build, if_neg hcase, bind_ok bump_eq, ifSees_eq] at hv
  generalize hfront : (s.build (·.start .functionCall)).advance = u at hv
  have hrest : u.rest = s.rest.drop 1 := by
    rw [← hfront, ParserState.rest_advance, ParserState.rest_build, List.drop_one]
  have hkind : ∀ kind, (c.ahead u.rest).isKind 0 kind = (c.ahead s.rest).isKind 1 kind := by
    intro kind
    rw [hrest, Lookahead.isKind_drop]
  rw [hkind, hkind, hname, if_pos rfl] at hv
  change (eat .dot >>= fun b => if b = true then bump >>= fun _ => arguments else arguments) c u =
    _ at hv
  by_cases hdot : (c.ahead s.rest).isKind 1 .dot
  · have heat : (eat .dot : Parser Rule Bool) c u = .ok true u.advance := by
      rw [eat, eatIf_eq, hkind, if_pos hdot]
    rw [bind_ok heat, if_pos rfl, bind_ok bump_eq] at hv
    refine ⟨_, v, ?_, hv, rfl⟩
    rw [if_pos hdot, ParserState.rest_advance, ParserState.rest_advance, hrest, List.tail_drop,
      List.tail_drop]
  · have heat : (eat .dot : Parser Rule Bool) c u = .ok false u := by
      rw [eat, eatIf_eq, hkind, if_neg hdot]
    rw [bind_ok heat, if_neg Bool.false_ne_true] at hv
    refine ⟨u, v, ?_, hv, rfl⟩
    rw [if_neg hdot, hrest]

theorem functionCall_ok_of_arguments (hstop : c.stop.kind = .eof) {n : Nat}
    (hcase : ¬(c.ahead s.rest).isKeyword 0 .CASE)
    (hn : (((c.ahead s.rest).matchingParen? (argumentsOpen (c.ahead s.rest))).bind
      (againstClose? (c.ahead s.rest))).bind (windowExtent? (c.ahead s.rest)) = some n)
    (h : functionCall c s = .ok () t) : n ≤ s.rest.length ∧ t.rest = s.rest.drop n := by
  obtain ⟨close, hclose, -⟩ := Option.bind_eq_some_iff.1 hn
  obtain ⟨first, hfirst, -⟩ := Option.bind_eq_some_iff.1 hclose
  have hparen := Lookahead.isKind_of_matchingParen? hfirst
  obtain ⟨hname, hopen⟩ : ((c.ahead s.rest).isKind 1 .leftParen || (c.ahead s.rest).isKind 1 .dot) ∧
      argumentsOpen (c.ahead s.rest) = if (c.ahead s.rest).isKind 1 .dot then 3 else 1 := by
    unfold argumentsOpen at hparen ⊢
    split at hparen
    · rename_i hpart
      obtain ⟨hdot, hpart⟩ := (Bool.and_eq_true _ _).mp hpart
      rw [hdot, hpart, Bool.or_true]
      exact ⟨rfl, rfl⟩
    · rename_i hpart
      have hdot : (c.ahead s.rest).isKind 1 .dot = false := by
        rw [Lookahead.isKind, TokenKind.eq_leftParen_of_alike (k := (c.ahead s.rest).kind 1) hparen]
        rfl
      rw [hparen, hdot, Bool.true_or]
      exact ⟨rfl, rfl⟩
  obtain ⟨u, v, hu, hv, rfl⟩ := functionCall_ok_of_name hcase hname h
  rw [← hopen] at hu
  rw [ParserState.rest_build]
  exact arguments_ok hstop hu hn hv

theorem functionCall_ok_of_bare (hcase : ¬(c.ahead s.rest).isKeyword 0 .CASE)
    (hparen : ¬(c.ahead s.rest).isKind 1 .leftParen) (hdot : ¬(c.ahead s.rest).isKind 1 .dot)
    (h : functionCall c s = .ok () t) : t.rest = s.rest.drop 1 := by
  obtain ⟨u, hu, rfl⟩ := production_ok h
  rw [sees_bind, ParserState.rest_build, if_neg hcase, bind_ok bump_eq, ifSees_eq,
    ParserState.rest_advance, ParserState.rest_build, ← List.drop_one, Lookahead.isKind_drop,
    Lookahead.isKind_drop, Bool.eq_false_iff.2 hparen, Bool.eq_false_iff.2 hdot] at hu
  cases hu
  rw [ParserState.rest_build, ParserState.rest_advance, ParserState.rest_build, List.drop_one]

theorem functionCall_ne_ok (hstop : c.stop.kind = .eof) (h : EndsWithOver (c.ahead s.rest)) :
    functionCall c s ≠ .ok () t := by
  intro hcall
  obtain ⟨close, hclose, hover, hlen⟩ := h.windowed
  have hparen : (c.ahead s.rest).isKind (close + 2) .leftParen = false := by
    rw [Lookahead.isKind, Lookahead.kind, Lookahead.token_of_le (Nat.le_of_eq hlen.symm),
      Setting.ahead, hstop]
    rfl
  have hn : windowExtent? (c.ahead s.rest) close = some (close + 3) := by
    rw [windowExtent?, if_pos hover, hparen, if_neg Bool.false_ne_true]
  have hle := (functionCall_ok_of_arguments hstop h.notCase
    (Option.bind_eq_some_iff.2 ⟨close, hclose, hn⟩) hcall).1
  rw [Setting.rest_ahead] at hlen
  omega

theorem dottedName_ok (hstop : c.stop.kind = .eof) (hname : (c.ahead s.rest).isName 0) :
    ∃ t, dottedName c s = .ok () t ∧ nameExtent (c.ahead s.rest) 0 ≤ s.rest.length ∧
      t.rest = s.rest.drop (nameExtent (c.ahead s.rest) 0) := by
  have hle := nameExtent.le_reach (a := c.ahead s.rest) hstop
    (Firm.le_reach (n := 1) (q := (·.isName 0)) hstop hname)
  have hpos : 1 ≤ nameExtent (c.ahead s.rest) 0 := by
    unfold nameExtent
    grind
  rw [dottedName_eq, sees_bind, expectName, expectIf_bind hname]
  obtain ⟨t, ht, hrest⟩ := bumpN_ok (c := c) (nameExtent (c.ahead s.rest) 0 - 1) s.advance
  refine ⟨t, ht, Nat.le_trans hle (reach_le_length _), ?_⟩
  rw [hrest, ParserState.rest_advance, ← List.drop_one, List.drop_drop, Nat.add_sub_cancel' hpos]

theorem isKind_dot_of_elementEndsAt {a : Lookahead} {n : Nat} (h : elementEndsAt a n) :
    ¬a.isKind n .dot := by
  intro hdot
  have hkind : a.kind n = .dot := TokenKind.eq_dot_of_alike hdot
  have hword : a.isOneOf n elementEnds = false := by
    unfold Lookahead.kind at hkind
    simp [Lookahead.isOneOf, Token.isOneOf, Token.keyword?, hkind]
  unfold elementEndsAt at h
  rw [hkind, hword, Lookahead.isName, hkind] at h
  contradiction

theorem functionCall_ok_of_ends (hstop : c.stop.kind = .eof) {n : Nat}
    (hcase : ¬(c.ahead s.rest).isKeyword 0 .CASE) (hn : callExtent? (c.ahead s.rest) 0 = some n)
    (hends : elementEndsAt (c.ahead s.rest) n) (h : functionCall c s = .ok () t) :
    n ≤ s.rest.length ∧ t.rest = s.rest.drop n := by
  rw [callExtent?_eq, if_neg hcase] at hn
  split at hn
  · rename_i hbare
    rw [Bool.and_eq_true, Bool.not_eq_true', ← Bool.not_eq_true] at hbare
    cases hn
    have hlt := Firm.le_reach (n := 1) (a := c.ahead s.rest)
      (q := fun a => bareFunctions.any (a.isWord 0)) hstop hbare.1
    exact ⟨Nat.le_trans hlt (reach_le_length _),
      functionCall_ok_of_bare hcase hbare.2 (isKind_dot_of_elementEndsAt hends) h⟩
  split at hn
  · exact functionCall_ok_of_arguments hstop hcase hn h
  · contradiction

theorem columnName_ok (hstop : c.stop.kind = .eof) {n : Nat}
    (hn : columnExtent? (c.ahead s.rest) = some n) :
    ∃ t, columnName c s = .ok () t ∧ n ≤ s.rest.length ∧ t.rest = s.rest.drop n := by
  unfold columnExtent? at hn
  split at hn
  · rename_i hname
    rw [Bool.and_eq_true] at hname
    cases hn
    obtain ⟨t, ht, hle, hrest⟩ :=
      dottedName_ok (s := s.build (·.start .fullColumnName)) hstop hname.1
    exact ⟨t.build (·.finish), bind_ok ht, hle, hrest⟩
  · contradiction

/--
What tells an element to be a call or a column is what is taken of it. A call that is seen to end
where an element may end fails or is taken up to there; a column that is seen is taken.
-/
theorem taken_as_seen (hstop : c.stop.kind = .eof) (s : ParserState Rule) :
    (∀ n, ¬(c.ahead s.rest).isKeyword 0 .CASE → callExtent? (c.ahead s.rest) 0 = some n →
      elementEndsAt (c.ahead s.rest) n → ∀ t, functionCall c s = .ok () t →
        n ≤ s.rest.length ∧ t.rest = s.rest.drop n) ∧
    ∀ n, columnExtent? (c.ahead s.rest) = some n →
      ∃ t, columnName c s = .ok () t ∧ n ≤ s.rest.length ∧ t.rest = s.rest.drop n := by
  constructor
  · intro n hcase hn hends t hcall
    exact functionCall_ok_of_ends hstop hcase hn hends hcall
  · intro n hn
    exact columnName_ok hstop hn

theorem taken_as_seen_window :
    (∃ t : ParserState Rule,
      functionCall (settingOf .mySql 0 []) (initial (Token.tokenize .mySql "s.f(a) OVER w x")) =
        .ok () t ∧
      t.rest = (Token.tokenize .mySql "s.f(a) OVER w x").dropLast.drop 8) ∧
    ∃ t : ParserState Rule,
      columnName (settingOf .mySql 0 []) (initial (Token.tokenize .mySql "t.a b")) = .ok () t ∧
      t.rest = (Token.tokenize .mySql "t.a b").dropLast.drop 3 := by
  constructor
  · obtain ⟨⟨⟩, t, ht⟩ := exists_ok_of_answer (r := functionCall (settingOf .mySql 0 [])
      (initial (Token.tokenize .mySql "s.f(a) OVER w x"))) (by decide +kernel)
    have htaken := (taken_as_seen rfl _).1 8 (by decide +kernel) (by decide +kernel)
      (by decide +kernel) t ht
    exact ⟨t, ht, htaken.2⟩
  · obtain ⟨t, ht, -, hrest⟩ := (taken_as_seen (c := settingOf .mySql 0 []) rfl
      (initial (Token.tokenize .mySql "t.a b"))).2 3 (by decide +kernel)
    exact ⟨t, ht, hrest⟩

end SqlScript.MySql
