import SqlScript.Proofs.Run
import SqlScript.Proofs.Simulation.Lookahead
import SqlScript.MySql.Script

/-!
The questions of the MySQL grammar. Each of them is answered alike by lookaheads that see the same;
two that look behind the end of a statement are told apart.
-/

namespace SqlScript

namespace MySql

instance : Steady 0 startsUid :=
  inferInstanceAs (Steady 0 fun a => a.isName 0 || a.isKind 0 .string)

instance : Firm 1 startsUid :=
  inferInstanceAs (Firm 1 fun a => a.isName 0 || a.isKind 0 .string)

instance : Steady 0 startsIndexHint :=
  inferInstanceAs (Steady 0 fun a => a.isOneOf 0 _ && a.isOneOf 1 _)

instance : Firm 2 startsIndexHint :=
  inferInstanceAs (Firm 2 fun a => a.isOneOf 0 _ && a.isOneOf 1 _)

instance : Steady 0 startsLock :=
  inferInstanceAs
    (Steady 0 fun a => a.isKeyword 0 .FOR || (a.isKeyword 0 .LOCK && a.isKeyword 1 .IN))

instance : Firm 1 startsLock :=
  inferInstanceAs (Firm 1 fun a => a.isKeyword 0 .FOR || (a.isKeyword 0 .LOCK && a.isKeyword 1 .IN))

instance : Steady 0 startsJoinSpec :=
  inferInstanceAs (Steady 0 fun a => a.isOneOf 0 _)

instance : Firm 1 startsJoinSpec :=
  inferInstanceAs (Firm 1 fun a => a.isOneOf 0 _)

instance : Steady 0 startsLimitValue :=
  inferInstanceAs (Steady 0 fun a =>
    a.isKind 0 .integer || a.isKind 0 .atVariable || a.isKind 0 .question || a.isName 0)

instance : Firm 1 startsLimitValue :=
  inferInstanceAs (Firm 1 fun a =>
    a.isKind 0 .integer || a.isKind 0 .atVariable || a.isKind 0 .question || a.isName 0)

instance : Steady 0 startsModifier :=
  inferInstanceAs (Steady 0 fun a => a.isOneOf 0 _ || modifierWords.any (a.isWord 0))

instance : Firm 1 startsModifier :=
  inferInstanceAs (Firm 1 fun a => a.isOneOf 0 _ || modifierWords.any (a.isWord 0))

instance : Steady 0 startsTruthTest where
  eq := by
    intro a a' hs hn
    unfold startsTruthTest
    rw [hs.ask (·.isKeyword 0 .IS) hn]
    cases his : a.isKeyword 0 .IS with
    | false => rfl
    | true =>
      have h₁ : Covers a a' 1 := hs.next (n := 0) (q := (·.isKeyword 0 .IS)) his
      rw [hs.ask (·.isKeyword 1 .NOT) h₁]
      split
      · have h₂ : Covers a a' 2 := hs.next (n := 1) (q := (·.isKeyword 1 .NOT)) ‹_›
        simp only [hs.ask (·.isOneOf 2 [.TRUE, .FALSE]) h₂, hs.ask (·.isWord 2 "UNKNOWN") h₂]
      · simp only [hs.ask (·.isOneOf 1 [.TRUE, .FALSE]) h₁, hs.ask (·.isWord 1 "UNKNOWN") h₁]

theorem startsTruthTest_le_reach {a : Lookahead} (hstop : a.stop.kind = .eof)
    (h : startsTruthTest a) :
    2 ≤ reach a.rest ∧ (a.isKeyword 1 .NOT → 3 ≤ reach a.rest) := by
  unfold startsTruthTest at h
  rw [Bool.and_eq_true] at h
  have h₁ : 1 ≤ reach a.rest := Firm.le_reach (q := (·.isKeyword 0 .IS)) hstop h.1
  cases hnot : a.isKeyword 1 .NOT with
  | true =>
    have h₂ : 2 ≤ reach a.rest := Lookahead.lt_reach_of_kind hstop h₁
      (Rejects.not_isEnd (q := (·.isKeyword 1 .NOT)) hnot)
    simp only [hnot, if_true] at h
    have h₃ : 3 ≤ reach a.rest := Lookahead.lt_reach_of_kind hstop h₂
      (Rejects.not_isEnd (q := fun a => a.isOneOf 2 [.TRUE, .FALSE] || a.isWord 2 "UNKNOWN") h.2)
    exact ⟨h₂, fun _ => h₃⟩
  | false =>
    simp only [hnot] at h
    have h₂ : 2 ≤ reach a.rest := Lookahead.lt_reach_of_kind hstop h₁
      (Rejects.not_isEnd (q := fun a => a.isOneOf 1 [.TRUE, .FALSE] || a.isWord 1 "UNKNOWN") h.2)
    exact ⟨h₂, fun h => by contradiction⟩

theorem steady_testKeyword? :
    Steady 0 fun a => a.keyword? (if a.isKeyword 0 .NOT then 1 else 0) where
  eq := by
    intro a a' hs hn
    rw [hs.ask (·.isKeyword 0 .NOT) hn]
    split
    · exact hs.ask (·.keyword? 1) (hs.next (n := 0) (q := (·.isKeyword 0 .NOT)) ‹_›)
    · exact hs.ask (·.keyword? 0) hn

theorem steady_isNull :
    Steady 1 fun a => a.isKeyword (if a.isKeyword 1 .NOT then 2 else 1) .NULL where
  eq := by
    intro a a' hs hn
    rw [hs.ask (·.isKeyword 1 .NOT) hn]
    split
    · exact hs.ask (·.isKeyword 2 .NULL) (hs.next (n := 1) (q := (·.isKeyword 1 .NOT)) ‹_›)
    · exact hs.ask (·.isKeyword 1 .NULL) hn

instance : Steady 0 test? where
  eq := by
    intro a a' hs hn
    have hkeyword := steady_testKeyword?.eq hs hn
    have hnot := hs.ask (·.isKeyword 0 .NOT) hn
    have hcomparison := (steady_kind 0 isComparison rfl).eq hs hn
    have hsounds := hs.ask (fun a => a.isWord 0 "SOUNDS" && a.isKeyword 1 .LIKE) hn
    have hmember := hs.ask (fun a => a.isWord 0 "MEMBER" && a.isKeyword 1 .OF) hn
    rw [hnot] at hkeyword
    unfold test?
    simp only [hkeyword, hnot, hcomparison, hsounds, hmember, hs.ask (·.isKeyword 0 .IS) hn]
    split <;> try rfl
    split <;> try rfl
    split
    · rw [steady_isNull.eq hs (hs.next (n := 0) (q := (·.isKeyword 0 .IS)) ‹_›)]
    · rfl

instance : Rejects 0 fun a => (test? a).isSome where
  not_isEnd := by
    intro a h hend
    have hkeyword : ∀ word, a.isKeyword 0 word = false := fun word =>
      Rejects.eq_false (q := (·.isKeyword 0 word)) hend
    have hword : ∀ word, a.isWord 0 word = false := fun word =>
      Rejects.eq_false (q := (·.isWord 0 word)) hend
    have hkeyword? : a.keyword? 0 = none := by
      simpa using Rejects.eq_false (q := fun a => (a.keyword? 0).isSome) hend
    have hcomparison : isComparison (a.kind 0) = false :=
      (rejects_kind 0 isComparison rfl rfl).eq_false hend
    simp [test?, hkeyword, hword, hkeyword?, hcomparison] at h

theorem announces_congr {name name' : String} (h : name'.toUpper = name.toUpper) :
    (name'.toList.head? == some '_' || Text.sameLetters name' "N") =
      (name.toList.head? == some '_' || Text.sameLetters name "N") := by
  rw [← Text.head?_beq_map (by decide), ← Text.toList_toUpper, h, Text.toList_toUpper,
    Text.head?_beq_map (by decide), Text.sameLetters_congr h]

instance : Steady 0 introducesString where
  eq := by
    intro a a' hs hn
    unfold introducesString
    have hstring (name : String) (hk : a.kind 0 = .identifier name) :
        a'.isKind 1 .string = a.isKind 1 .string :=
      hs.ask (·.isKind 1 .string) (hs.covers_succ (n := 0) (by simp [hk]))
    obtain heq | ⟨name, name', hname, hname', hcase⟩ | ⟨heof, hsemi⟩ := hs.kind hn
    · rw [heq]
      split
      · rename_i name hk
        rw [hstring name hk]
      · rfl
    · rw [hname, hname']
      dsimp only
      rw [hstring name hname, announces_congr hcase]
    · rw [heof, hsemi]

theorem introducesString_le_reach {a : Lookahead} (hstop : a.stop.kind = .eof)
    (h : introducesString a) : 2 ≤ reach a.rest := by
  unfold introducesString at h
  split at h
  · rename_i name hk
    rw [Bool.and_eq_true] at h
    have h₁ : 1 ≤ reach a.rest := Lookahead.lt_reach_of_kind hstop (Nat.zero_le _)
      (by simp [hk, TokenKind.isEnd])
    exact Lookahead.lt_reach_of_kind hstop h₁ (Rejects.not_isEnd (q := (·.isKind 1 .string)) h.1)
  · contradiction

instance : Steady n (nameExtent.hasPart · n) :=
  inferInstanceAs (Steady n fun a => a.isKind n .dot && a.isNamePart (n + 1))

theorem nameExtent.le_reach {a : Lookahead} (hstop : a.stop.kind = .eof) {n : Nat}
    (h : n < reach a.rest) : nameExtent a n ≤ reach a.rest := by
  have hpart : ∀ m ≤ reach a.rest, nameExtent.hasPart a m → m + 2 ≤ reach a.rest := by
    intro m hm hp
    unfold nameExtent.hasPart at hp
    rw [Bool.and_eq_true] at hp
    have hdot := Lookahead.lt_reach_of_kind hstop hm
      (Rejects.not_isEnd (q := (·.isKind m .dot)) hp.1)
    exact Lookahead.lt_reach_of_kind hstop hdot
      (Rejects.not_isEnd (q := (·.isNamePart (m + 1))) hp.2)
  unfold nameExtent
  split
  · have h₃ := hpart (n + 1) h ‹_›
    split
    · exact hpart (n + 3) h₃ ‹_›
    · exact h₃
  · exact h

instance : Steady (n + 1) (nameExtent · n) where
  eq := by
    intro a a' hs hn
    unfold nameExtent
    rw [hs.ask (nameExtent.hasPart · (n + 1)) hn]
    split
    · rename_i h
      unfold nameExtent.hasPart at h
      rw [Bool.and_eq_true] at h
      have h₃ : Covers a a' (n + 3) := hs.next (n := n + 2) (q := (·.isNamePart (n + 2))) h.2
      rw [hs.ask (nameExtent.hasPart · (n + 3)) h₃]
    · rfl

theorem nameExtent.hasPart_drop (c : Setting) (ts : List Token) (k n : Nat) :
    hasPart (c.ahead (ts.drop k)) n = hasPart (c.ahead ts) (k + n) := by
  unfold hasPart Lookahead.isNamePart Lookahead.isKind Lookahead.kind Setting.ahead
  rw [Lookahead.token_drop, Lookahead.token_drop, Nat.add_assoc]

theorem dottedName_eq :
    dottedName = (do
      let extent ← Parser.sees (nameExtent · 0)
      Parser.expectName
      Parser.bumpN (extent - 1)) := by
  funext c s
  unfold dottedName Parser.expectName
  rw [Parser.sees_bind]
  cases hname : (c.ahead s.rest).isName 0 with
  | false => rw [Parser.expectIf_bind_error hname, Parser.expectIf_bind_error hname]
  | true =>
    rw [Parser.expectIf_bind hname, Parser.expectIf_bind hname, Parser.ifSees_eq,
      ParserState.rest_advance, ← List.drop_one, nameExtent.hasPart_drop]
    unfold nameExtent
    split
    · change Parser.ifSees (nameExtent.hasPart · 0) (Parser.bumpN 2) c s.advance.advance.advance = _
      rw [Parser.ifSees_eq]
      simp only [ParserState.rest_advance, ← List.drop_one, List.drop_drop, nameExtent.hasPart_drop]
      split <;> rfl
    · rfl

instance : Steady 0 columnExtent? where
  eq := by
    intro a a' hs hn
    unfold columnExtent?
    rw [hs.ask (·.isName 0) hn, hs.ask introducesString hn]
    split
    · rename_i h
      rw [Bool.and_eq_true] at h
      rw [hs.ask (nameExtent · 0) (hs.next (n := 0) (q := (·.isName 0)) h.1)]
    · rfl

theorem columnExtent?_le_reach {a : Lookahead} (hstop : a.stop.kind = .eof) {n : Nat}
    (h : columnExtent? a = some n) : n ≤ reach a.rest := by
  unfold columnExtent? at h
  split at h
  · rename_i hname
    rw [Bool.and_eq_true] at hname
    cases h
    exact nameExtent.le_reach hstop (Firm.le_reach (q := (·.isName 0)) hstop hname.1)
  · contradiction

instance : Steady n (elementEndsAt · n) where
  eq := by
    intro a a' hs hn
    have hsounds := hs.ask (fun a => a.isWord n "SOUNDS" && a.isKeyword (n + 1) .LIKE) hn
    have hmember := hs.ask (fun a => a.isWord n "MEMBER" && a.isKeyword (n + 1) .OF) hn
    unfold elementEndsAt
    rw [hs.ask (·.isOneOf n elementEnds) hn, hs.ask (·.isName n) hn, hsounds, hmember]
    obtain heq | ⟨name, name', hname, hname', -⟩ | ⟨heof, hsemi⟩ := hs.kind hn
    · rw [heq]
    · rw [hname, hname']
    · rw [heof, hsemi]

theorem qualifiedStar?_of_semicolon {t : Token} (h : t.kind = .semicolon) (ts : List Token) :
    qualifiedStar? (t :: ts) = none := by
  cases ts with
  | nil => rfl
  | cons => simp [qualifiedStar?, Token.isNamePart, h]

theorem head?_any_of_alike {ts ts' : List Token} (h : Alike ts ts') (kind : TokenKind)
    [kind.Inner] : ts'.head?.any (·.kind.alike kind) = ts.head?.any (·.kind.alike kind) := by
  cases h with
  | nil => rfl
  | ends h => simp [h]
  | cons hk => simp [TokenKind.alike_congr hk]

theorem qualifiedStar?_of_alike {ts ts' : List Token} (h : Alike ts ts') :
    qualifiedStar? ts' = qualifiedStar? ts := by
  match h with
  | .nil => rfl
  | .ends h => rw [qualifiedStar?_of_semicolon h, qualifiedStar?]; simp
  | .cons hk .nil => rfl
  | .cons hk (.ends h) => simp [qualifiedStar?, h]
  | .cons hk (.cons hk' rest) =>
    have ih := qualifiedStar?_of_alike rest
    have hstar := head?_any_of_alike rest .star
    simp only [qualifiedStar?, Token.isNamePart_congr hk, TokenKind.alike_congr hk', ih, hstar]

theorem qualifiedStar?_lt_reach {ts : List Token} {n : Nat} (h : qualifiedStar? ts = some n) :
    n < reach ts := by
  have hpart : ∀ {t : Token}, t.isNamePart → t.kind ≠ .semicolon := by
    intro t ht hk
    simp [Token.isNamePart, hk] at ht
  have halike : ∀ {t : Token} {k : TokenKind} [k.Inner], t.kind.alike k → t.kind ≠ .semicolon := by
    intro t k _ ht hk
    simp [hk] at ht
  induction ts using qualifiedStar?.induct generalizing n with
  | case1 name dot rest hdot hstar =>
    unfold qualifiedStar? at h
    rw [if_pos hdot, if_pos hstar] at h
    rw [Bool.and_eq_true] at hdot
    cases h
    cases rest with
    | nil => simp at hstar
    | cons star rest =>
      simp only [List.head?_cons, Option.any_some] at hstar
      simp [reach, hpart hdot.1, halike hdot.2, halike hstar]
  | case2 name dot rest hdot hstar ih =>
    unfold qualifiedStar? at h
    rw [if_pos hdot, if_neg hstar] at h
    rw [Bool.and_eq_true] at hdot
    obtain ⟨m, hm, rfl⟩ := Option.map_eq_some_iff.1 h
    have := ih hm
    simp [reach, hpart hdot.1, halike hdot.2]
    omega
  | case3 name dot rest hdot =>
    unfold qualifiedStar? at h
    rw [if_neg hdot] at h
    contradiction
  | case4 ts hts =>
    unfold qualifiedStar? at h
    split at h
    · exact absurd rfl (hts _ _ _)
    · contradiction

instance : Steady 0 starExtent? where
  eq := by
    intro a a' hs hn
    unfold starExtent?
    rw [hs.ask (·.isKind 0 .star) hn, qualifiedStar?_of_alike hs.rest]

theorem starExtent?_lt_reach {a : Lookahead} (hstop : a.stop.kind = .eof) {n : Nat}
    (h : starExtent? a = some n) : n < reach a.rest := by
  unfold starExtent? at h
  split at h
  · cases h
    exact Firm.le_reach (q := (·.isKind 0 .star)) hstop ‹_›
  · exact qualifiedStar?_lt_reach h

instance : Steady 1 comparesWithSubquery :=
  inferInstanceAs (Steady 1 fun a => a.isOneOf 1 _ && a.isKind 2 .leftParen)

def argumentsOpen (a : Lookahead) : Nat :=
  if a.isKind 1 .dot && a.isNamePart 2 then 3 else 1

/--
The index of the parenthesis that closes what `MATCH` is held against, behind columns that are
closed at `close`; without `AGAINST`, it is `close`.
-/
def againstClose? (a : Lookahead) (close : Nat) : Option Nat :=
  if a.isWord (close + 1) "AGAINST" then a.matchingParen? (close + 2) else some close

def windowExtent? (a : Lookahead) (close : Nat) : Option Nat :=
  if a.isKeyword (close + 1) .OVER then
    if a.isKind (close + 2) .leftParen then
      (· + 1) <$> a.matchingParen? (close + 2)
    else
      some (close + 3)
  else
    some (close + 1)

theorem callExtent?_eq (a : Lookahead) :
    callExtent? a 0 =
      if a.isKeyword 0 .CASE then
        a.caseExtent? 0
      else if bareFunctions.any (a.isWord 0) && !a.isKind 1 .leftParen then
        some 1
      else if a.isName 0 || a.isOneOf 0 functionKeywords then
        ((a.matchingParen? (argumentsOpen a)).bind (againstClose? a)).bind (windowExtent? a)
      else
        none := by
  unfold callExtent? argumentsOpen
  simp only [Nat.zero_add]
  split <;> try rfl
  split <;> try rfl
  split <;> try rfl
  cases a.matchingParen? (if (a.isKind 1 .dot && a.isNamePart 2) = true then 3 else 1) with
  | none => rfl
  | some close =>
    simp only [Option.bind_eq_bind, Option.bind_some, againstClose?]
    split <;> rfl

theorem covers_argumentsOpen {a a' : Lookahead} (hs : Sees a a') (h₁ : Covers a a' 1) :
    argumentsOpen a' = argumentsOpen a ∧ Covers a a' (argumentsOpen a) := by
  unfold argumentsOpen
  rw [hs.ask (fun a => a.isKind 1 .dot && a.isNamePart 2) h₁]
  refine ⟨rfl, ?_⟩
  split
  · rename_i hdot
    rw [Bool.and_eq_true] at hdot
    exact hs.next (n := 2) (q := (·.isNamePart 2)) hdot.2
  · exact h₁

theorem againstClose?_of_sees {a a' : Lookahead} (hs : Sees a a') {close : Nat}
    (hlt : close < a.rest.length) : againstClose? a' close = againstClose? a close := by
  have h : Covers a a' (close + 1) := .inl hlt
  unfold againstClose?
  rw [hs.ask (·.isWord (close + 1) "AGAINST") h]
  split
  · exact hs.matchingParen? (hs.next (n := close + 1) (q := (·.isWord (close + 1) "AGAINST")) ‹_›)
  · rfl

theorem againstClose?_lt_length {a : Lookahead} {open' close : Nat}
    (hlt : open' < a.rest.length) (h : againstClose? a open' = some close) :
    close < a.rest.length := by
  unfold againstClose? at h
  split at h
  · exact (Lookahead.lt_length_of_matchingParen? h).2
  · cases h
    exact hlt

theorem windowExtent?_of_sees {a a' : Lookahead} (hs : Sees a a') {close : Nat}
    (hlt : close < a.rest.length) : windowExtent? a' close = windowExtent? a close := by
  have h : Covers a a' (close + 1) := .inl hlt
  unfold windowExtent?
  rw [hs.ask (·.isKeyword (close + 1) .OVER) h]
  split
  · have h₂ : Covers a a' (close + 2) :=
      hs.next (n := close + 1) (q := (·.isKeyword (close + 1) .OVER)) ‹_›
    rw [hs.ask (·.isKind (close + 2) .leftParen) h₂, hs.matchingParen? h₂]
  · rfl

/-- Where a call is not seen alike, the first lookahead ends in an open `CASE`. -/
theorem callExtent?_of_sees {a a' : Lookahead} (hs : Sees a a') :
    callExtent? a' 0 = callExtent? a 0 ∨ CaseReachesOut a a' 0 := by
  have h₀ : Covers a a' 0 := .inl (Nat.zero_le _)
  rw [callExtent?_eq, callExtent?_eq]
  rw [hs.ask (·.isKeyword 0 .CASE) h₀,
    hs.ask (fun a => bareFunctions.any (a.isWord 0) && !a.isKind 1 .leftParen) h₀,
    hs.ask (fun a => a.isName 0 || a.isOneOf 0 functionKeywords) h₀]
  split
  · exact hs.caseExtent? h₀
  left
  split
  · rfl
  split
  · rename_i hname
    have h₁ : Covers a a' 1 :=
      hs.next (n := 0) (q := fun a => a.isName 0 || a.isOneOf 0 functionKeywords) hname
    obtain ⟨heq, hopen⟩ := covers_argumentsOpen hs h₁
    rw [heq, hs.matchingParen? hopen]
    cases hclose : a.matchingParen? (argumentsOpen a) with
    | none => rfl
    | some close =>
      have hlt := (Lookahead.lt_length_of_matchingParen? hclose).2
      simp only [Option.bind_some, againstClose?_of_sees hs hlt]
      cases hagainst : againstClose? a close with
      | none => rfl
      | some close => exact windowExtent?_of_sees hs (againstClose?_lt_length hlt hagainst)
  · rfl

instance : Rejects 0 fun a => (callExtent? a 0).isSome where
  not_isEnd := by
    intro a h hend
    have hcase : a.isKeyword 0 .CASE = false := Rejects.eq_false (q := (·.isKeyword 0 .CASE)) hend
    have hbare : bareFunctions.any (a.isWord 0) = false :=
      Rejects.eq_false (q := fun a => bareFunctions.any (a.isWord 0)) hend
    have hname : (a.isName 0 || a.isOneOf 0 functionKeywords) = false :=
      Rejects.eq_false (q := fun a => a.isName 0 || a.isOneOf 0 functionKeywords) hend
    rw [callExtent?_eq, hcase, hbare, hname] at h
    contradiction

theorem callExtent?_of_case {a : Lookahead} (hcase : a.isKeyword 0 .CASE)
    (hnone : a.caseExtent? 0 = none) : callExtent? a 0 = none := by
  rw [callExtent?_eq, if_pos hcase, hnone]

theorem isName_of_case {a : Lookahead} (hcase : a.isKeyword 0 .CASE)
    (hreserved : a.dialect.isReserved .CASE) : a.isName 0 = false := by
  have hkind := Lookahead.kind_of_isKeyword hcase
  unfold Lookahead.isName
  rw [hkind]
  simp [hreserved]

/--
The text ends where the name of a window should follow a call.
-/
structure EndsWithOver (a : Lookahead) : Prop where
  notCase : ¬a.isKeyword 0 .CASE
  named : a.isName 0 || a.isOneOf 0 functionKeywords
  windowed : ∃ close, (a.matchingParen? (argumentsOpen a)).bind (againstClose? a) = some close ∧
    a.isKeyword (close + 1) .OVER ∧ close + 2 = a.rest.length

theorem EndsWithOver.kind_argumentsOpen {a : Lookahead} (h : EndsWithOver a) :
    a.kind (argumentsOpen a) = .leftParen := by
  obtain ⟨close, hclose, -⟩ := h.windowed
  obtain ⟨first, hfirst, -⟩ := Option.bind_eq_some_iff.1 hclose
  exact TokenKind.eq_leftParen_of_alike (Lookahead.isKind_of_matchingParen? hfirst)

theorem EndsWithOver.callExtent?_isSome {a : Lookahead} (h : EndsWithOver a)
    (hstop : a.stop.kind = .eof) : (callExtent? a 0).isSome := by
  obtain ⟨close, hclose, hover, hlen⟩ := h.windowed
  have hparen : a.isKind (close + 2) .leftParen = false := by
    unfold Lookahead.isKind Lookahead.kind
    rw [Lookahead.token_of_le (Nat.le_of_eq hlen.symm), hstop]
    rfl
  rw [callExtent?_eq, if_neg h.notCase]
  split
  · rfl
  · rw [if_pos h.named, hclose, Option.bind_some, windowExtent?, if_pos hover, hparen]
    rfl

def operandKeywords : List Keyword := [
  .NULL, .TRUE, .FALSE, .NOT, .BINARY, .ROW, .EXISTS, .INTERVAL]

/--
In front is a word, and none that starts an operand which is neither a call nor a column.
-/
structure StartsNamed (a : Lookahead) : Prop where
  head : (∃ name, a.kind 0 = .identifier name) ∨ (∃ name, a.kind 0 = .quotedIdentifier name) ∨
    ∃ word, a.kind 0 = .keyword word ∧ word ∉ operandKeywords
  notString : introducesString a = false

namespace StartsNamed

variable {a : Lookahead}

theorem of_bare (h : bareFunctions.any (a.isWord 0)) : StartsNamed a := by
  obtain ⟨text, hmem, hword⟩ := List.any_eq_true.1 h
  unfold Lookahead.isWord Token.isWord at hword
  rw [show (a.token 0).kind = a.kind 0 from rfl] at hword
  split at hword
  · rename_i name hk
    have hall : ∀ text ∈ bareFunctions,
        (text.toList.head? == some '_' || Text.sameLetters text "N") = false := by decide +kernel
    refine ⟨.inl ⟨name, hk⟩, ?_⟩
    unfold introducesString
    rw [hk]
    dsimp only
    rw [announces_congr (eq_of_beq hword), hall text hmem, Bool.and_false]
  · rename_i word hk
    have hall : ∀ word ∈ operandKeywords, ∀ text ∈ bareFunctions,
        Text.sameLetters word.spelling text = false := by decide +kernel
    refine ⟨.inr (.inr ⟨word, hk, fun hoperand => ?_⟩), ?_⟩
    · rw [hall word hoperand text hmem] at hword
      contradiction
    · unfold introducesString
      rw [hk]
  · contradiction

theorem of_name (hdialect : a.dialect = .mySql)
    (h : a.isName 0 || a.isOneOf 0 functionKeywords) (hstring : introducesString a = false) :
    StartsNamed a := by
  refine ⟨?_, hstring⟩
  unfold Lookahead.isName Lookahead.isOneOf Token.isOneOf Token.keyword? at h
  rw [show (a.token 0).kind = a.kind 0 from rfl, hdialect] at h
  cases hk : a.kind 0 with
  | identifier name => exact .inl ⟨name, rfl⟩
  | quotedIdentifier name => exact .inr (.inl ⟨name, rfl⟩)
  | keyword word =>
    refine .inr (.inr ⟨word, rfl, fun hoperand => ?_⟩)
    have hall : ∀ word ∈ operandKeywords,
        (!Dialect.mySql.isReserved word || functionKeywords.contains word) = false := by decide
    have := hall word hoperand
    rw [hk] at h
    dsimp only at h
    rw [this] at h
    contradiction
  | _ =>
    rw [hk] at h
    contradiction

theorem of_callExtent? (hdialect : a.dialect = .mySql) (h : (callExtent? a 0).isSome) :
    StartsNamed a := by
  rw [callExtent?_eq] at h
  split at h
  · rename_i hcase
    have hk := Lookahead.kind_of_isKeyword hcase
    refine ⟨.inr (.inr ⟨.CASE, hk, by decide⟩), ?_⟩
    unfold introducesString
    rw [hk]
  split at h
  · rename_i hbare
    exact of_bare ((Bool.and_eq_true _ _).mp hbare).1
  split at h
  · rename_i hname
    refine of_name hdialect hname ?_
    obtain ⟨n, hn⟩ := Option.isSome_iff_exists.1 h
    obtain ⟨close, hclose, -⟩ := Option.bind_eq_some_iff.1 hn
    obtain ⟨first, hfirst, -⟩ := Option.bind_eq_some_iff.1 hclose
    have hparen := Lookahead.isKind_of_matchingParen? hfirst
    have hstring : a.isKind 1 .string = false := by
      unfold argumentsOpen at hparen
      split at hparen
      · rename_i hdot
        unfold Lookahead.isKind
        rw [TokenKind.eq_dot_of_alike (k := a.kind 1) ((Bool.and_eq_true _ _).mp hdot).1]
        rfl
      · unfold Lookahead.isKind
        rw [TokenKind.eq_leftParen_of_alike (k := a.kind 1) hparen]
        rfl
    unfold introducesString
    rw [hstring]
    split <;> rfl
  · contradiction

theorem of_columnExtent? (hdialect : a.dialect = .mySql) (h : (columnExtent? a).isSome) :
    StartsNamed a := by
  unfold columnExtent? at h
  split at h
  · rename_i hname
    obtain ⟨hname, hstring⟩ := (Bool.and_eq_true _ _).mp hname
    exact of_name hdialect (by rw [hname, Bool.true_or]) (by simpa using hstring)
  · contradiction

theorem not_isKeyword (h : StartsNamed a) {word : Keyword} (hword : word ∈ operandKeywords) :
    a.isKeyword 0 word = false := by
  rw [Bool.eq_false_iff]
  intro hkeyword
  have hk := Lookahead.kind_of_isKeyword hkeyword
  obtain ⟨name, hname⟩ | ⟨name, hname⟩ | ⟨other, hother, hmem⟩ := h.head
  · rw [hk] at hname
    contradiction
  · rw [hk] at hname
    contradiction
  · rw [hk] at hother
    cases hother
    contradiction

theorem primary_eq {c : Setting} {s : ParserState Rule} (h : StartsNamed (c.ahead s.rest))
    (nested : Goal → Parser Rule Unit) : primary nested c s = named c s := by
  unfold primary
  rw [Parser.ahead_bind]
  obtain ⟨name, hk⟩ | ⟨name, hk⟩ | ⟨word, hk, hword⟩ := h.head
  · rw [hk, h.notString]
    rfl
  · rw [hk]
  · rw [hk]
    dsimp only
    split <;> first | rfl | exact absurd hword (by decide)

end StartsNamed
theorem windowExtent?_le {a : Lookahead} (hstop : a.stop.kind = .eof) {close n : Nat}
    (hlt : close < a.rest.length) (h : windowExtent? a close = some n) :
    n ≤ a.rest.length ∨ a.isKeyword (close + 1) .OVER ∧ close + 2 = a.rest.length := by
  unfold windowExtent? at h
  split at h
  · rename_i hover
    have hlt : close + 1 < a.rest.length := by
      apply Lookahead.lt_length_of_kind hstop
      intro heof
      exact Rejects.not_isEnd (q := (·.isKeyword (close + 1) .OVER)) hover (.inl heof)
    split at h
    · obtain ⟨m, hm, rfl⟩ := Option.map_eq_some_iff.1 h
      exact .inl (Lookahead.lt_length_of_matchingParen? hm).2
    · cases h
      by_cases hend : close + 2 = a.rest.length
      · exact .inr ⟨hover, hend⟩
      · left
        omega
  · cases h
    exact .inl hlt

theorem callExtent?_le {a : Lookahead} (hstop : a.stop.kind = .eof) {n : Nat}
    (h : callExtent? a 0 = some n) : n ≤ a.rest.length ∨ EndsWithOver a := by
  rw [callExtent?_eq] at h
  split at h
  · exact .inl (Lookahead.le_length_of_caseExtent? (Nat.zero_le _) h)
  rename_i hcase
  split at h
  · rename_i hbare
    rw [Bool.and_eq_true] at hbare
    cases h
    have := Firm.le_reach (n := 1) (q := fun a => bareFunctions.any (a.isWord 0)) hstop hbare.1
    exact .inl (Nat.le_trans this (reach_le_length _))
  split at h
  · rename_i hname
    obtain ⟨close, hclose, hwindow⟩ := Option.bind_eq_some_iff.1 h
    obtain ⟨first, hfirst, hagainst⟩ := Option.bind_eq_some_iff.1 hclose
    have hlt := againstClose?_lt_length (Lookahead.lt_length_of_matchingParen? hfirst).2 hagainst
    obtain hle | ⟨hover, hend⟩ := windowExtent?_le hstop hlt hwindow
    · exact .inl hle
    · exact .inr ⟨hcase, hname, close, hclose, hover, hend⟩
  · contradiction

instance : Steady 0 Family.ofLookahead? where
  eq := by
    intro a a' hs hn
    unfold Family.ofLookahead?
    rw [hs.ask (·.isKind 0 .leftParen) hn, hs.find?_isOneOf hn, hs.find?_isWord hn,
      hs.ask (fun a => a.isKeyword 0 .START && (a.isWord 1 "SLAVE" || a.isWord 1 "REPLICA")) hn]

theorem Family.startsRun_of_ofLookahead? {a : Lookahead} (h : (Family.ofLookahead? a).isSome) :
    (a.kind 0).startsRun := by
  apply Decidable.byContradiction
  intro hstart
  have hkeyword : ∀ word, a.isKeyword 0 word = false := fun word =>
    Lookahead.isKeyword_of_not_startsRun hstart word
  have hone : ∀ words, a.isOneOf 0 words = false := fun words =>
    Lookahead.isOneOf_of_not_startsRun hstart words
  have hword : ∀ word, a.isWord 0 word = false := fun word =>
    Lookahead.isWord_of_not_startsRun hstart word
  have hparen : a.isKind 0 .leftParen = false := by
    rw [Bool.eq_false_iff]
    intro hparen
    rw [TokenKind.eq_leftParen_of_alike hparen] at hstart
    exact hstart rfl
  simp [Family.ofLookahead?, hkeyword, hone, hword, hparen] at h

section

variable (words : List String)

theorem skipModifiers.isModifier_eq {t t' : Token} (h : t'.kind.folded = t.kind.folded) :
    isModifier words t' = isModifier words t := by
  unfold isModifier
  rw [Token.isOneOf_congr h, funext (Token.isWord_congr h)]

theorem skipModifiers.not_isModifier {t : Token} (h : t.kind = .semicolon) :
    isModifier words t = false := by
  simp [isModifier, Token.isOneOf, Token.keyword?, Token.isWord, h]

instance : Steady n (skipModifiers words · n) where
  eq := by
    intro a a' hs hn
    unfold skipModifiers
    congr 1
    apply (hs.rest.drop hn).takeWhile_length
    · intro t t' h
      exact skipModifiers.isModifier_eq words h
    · intro t h
      exact skipModifiers.not_isModifier words h

theorem takeWhile_le_reach {p : Token → Bool} (hp : ∀ t, t.kind = .semicolon → p t = false)
    {ts : List Token} {n : Nat} (hn : n ≤ reach ts) :
    n + ((ts.drop n).takeWhile p).length ≤ reach ts := by
  induction ts generalizing n with
  | nil => simpa using hn
  | cons t ts ih =>
    unfold reach at hn ⊢
    cases n with
    | zero =>
      rw [List.drop_zero, List.takeWhile_cons]
      split
      · rename_i hpt
        have hk : t.kind ≠ .semicolon := fun hk => by simp [hp t hk] at hpt
        have := ih (Nat.zero_le _)
        simp [hk] at this ⊢
        exact this
      · exact Nat.zero_le _
    | succ n =>
      split at hn
      · omega
      · rw [if_neg ‹_›]
        have := ih (Nat.le_of_succ_le_succ hn)
        rw [List.drop_succ_cons]
        omega

theorem skipModifiers_le_reach {a : Lookahead} {n : Nat} (hn : n ≤ reach a.rest) :
    skipModifiers words a n ≤ reach a.rest :=
  takeWhile_le_reach (fun _ h => skipModifiers.not_isModifier words h) hn

end

theorem covers_nameExtent {a a' : Lookahead} (hs : Sees a a') {n : Nat} (hn : Covers a a' (n + 1)) :
    Covers a a' (nameExtent a n) := by
  have hpart : ∀ m, nameExtent.hasPart a m → Covers a a' (m + 2) := by
    intro m hm
    unfold nameExtent.hasPart at hm
    rw [Bool.and_eq_true] at hm
    exact hs.next (n := m + 1) (q := (·.isNamePart (m + 1))) hm.2
  unfold nameExtent
  split
  · split
    · exact hpart (n + 3) ‹_›
    · exact hpart (n + 1) ‹_›
  · exact hn

theorem aliasedNameExtent?_of_sees {a a' : Lookahead} (hs : Sees a a') {n : Nat}
    (hn : Covers a a' n) :
    aliasedNameExtent? a' n = aliasedNameExtent? a n ∧
      ∀ m ∈ aliasedNameExtent? a n, Covers a a' m := by
  unfold aliasedNameExtent?
  rw [hs.ask (·.isName n) hn]
  split
  · rename_i hname
    have hn₁ : Covers a a' (n + 1) := hs.next (n := n) (q := (·.isName n)) hname
    have hextent := covers_nameExtent hs hn₁
    have has : Covers a a' (if a.isKeyword (nameExtent a n) .AS then nameExtent a n + 1
        else nameExtent a n) := by
      split
      · exact hs.next (q := (·.isKeyword (nameExtent a n) .AS)) ‹_›
      · exact hextent
    simp only [hs.ask (nameExtent · n) hn₁, hs.ask (·.isKeyword (nameExtent a n) .AS) hextent]
    generalize (if a.isKeyword (nameExtent a n) .AS = true then nameExtent a n + 1
      else nameExtent a n) = k at has
    rw [hs.ask (·.isName k) has]
    refine ⟨rfl, ?_⟩
    intro m hm
    cases hm
    split
    · exact hs.next (q := (·.isName k)) ‹_›
    · exact has
  · exact ⟨rfl, fun _ h => by contradiction⟩

instance : Steady n (updatesOneTable n) where
  eq := by
    intro a a' hs hn
    obtain ⟨heq, hcovers⟩ := aliasedNameExtent?_of_sees hs hn
    unfold updatesOneTable
    rw [heq]
    cases h : aliasedNameExtent? a n with
    | none => rfl
    | some m => exact hs.ask (·.isKeyword m .SET) (hcovers m h)

instance : Steady n (deletesFromOneTable n) where
  eq := by
    intro a a' hs hn
    unfold deletesFromOneTable
    rw [hs.ask (·.isKeyword n .FROM) hn]
    cases hfrom : a.isKeyword n .FROM with
    | false => rfl
    | true =>
      have hn₁ : Covers a a' (n + 1) := hs.next (n := n) (q := (·.isKeyword n .FROM)) hfrom
      obtain ⟨heq, hcovers⟩ := aliasedNameExtent?_of_sees hs hn₁
      rw [heq]
      cases h : aliasedNameExtent? a (n + 1) with
      | none => rfl
      | some m =>
        have hm := hcovers m h
        have hend : (a'.isKind m .semicolon || a'.isKind m .eof) =
            (a.isKind m .semicolon || a.isKind m .eof) :=
          (steady_kind m (fun kind => kind.alike .semicolon || kind.alike .eof) rfl).eq hs hm
        simp only [Option.any_some, hend,
          hs.ask (·.isOneOf m [.PARTITION, .WHERE, .ORDER, .LIMIT]) hm]

instance : Rejects n (deletesFromOneTable n) where
  not_isEnd := by
    intro a h
    unfold deletesFromOneTable at h
    rw [Bool.and_eq_true] at h
    exact Rejects.not_isEnd (q := (·.isKeyword n .FROM)) h.1

end MySql

end SqlScript
