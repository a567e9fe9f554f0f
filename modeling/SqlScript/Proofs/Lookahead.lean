import SqlScript.Parsing.Lookahead

/-!
What is known of the tokens in front from the answers to questions about them.
-/

namespace SqlScript

namespace TokenKind

theorem eq_leftParen_of_alike {k : TokenKind} (h : k.alike .leftParen) : k = .leftParen := by
  cases k <;> first | rfl | contradiction

theorem eq_rightParen_of_alike {k : TokenKind} (h : k.alike .rightParen) : k = .rightParen := by
  cases k <;> first | rfl | contradiction

theorem eq_eof_of_alike {k : TokenKind} (h : k.alike .eof) : k = .eof := by
  cases k <;> first | rfl | contradiction

theorem eq_semicolon_of_alike {k : TokenKind} (h : k.alike .semicolon) : k = .semicolon := by
  cases k <;> first | rfl | contradiction

theorem eq_dot_of_alike {k : TokenKind} (h : k.alike .dot) : k = .dot := by
  cases k <;> first | rfl | contradiction

theorem eq_star_of_alike {k : TokenKind} (h : k.alike .star) : k = .star := by
  cases k <;> first | rfl | contradiction

theorem eq_comma_of_alike {k : TokenKind} (h : k.alike .comma) : k = .comma := by
  cases k <;> first | rfl | contradiction

theorem eq_eq_of_alike {k : TokenKind} (h : k.alike .eq) : k = .eq := by
  cases k <;> first | rfl | contradiction

def startsRun (k : TokenKind) : Bool :=
  match k with
  | .rightParen | .rightBracket | .semicolon | .eof => false
  | _ => true

end TokenKind

theorem Token.kind_of_isKeyword {t : Token} {word : Keyword} (h : t.isKeyword word) :
    t.kind = .keyword word := by
  unfold isKeyword keyword? at h
  split at h
  · rename_i word' hk
    rw [hk, Option.some_inj.1 (eq_of_beq h)]
  · contradiction

namespace Lookahead

theorem token_of_lt {a : Lookahead} {n : Nat} (hn : n < a.rest.length) :
    a.token n = a.rest[n] := by
  simp [token, hn]

theorem token_of_le {a : Lookahead} {n : Nat} (hn : a.rest.length ≤ n) : a.token n = a.stop := by
  simp [token, hn]

theorem token_tail (c : Setting) (ts : List Token) (n : Nat) :
    Lookahead.token ⟨c, ts.tail⟩ n = Lookahead.token ⟨c, ts⟩ (n + 1) := by
  simp [token]

theorem token_drop (c : Setting) (ts : List Token) (k n : Nat) :
    Lookahead.token ⟨c, ts.drop k⟩ n = Lookahead.token ⟨c, ts⟩ (k + n) := by
  simp [token]

theorem isKeyword_of_leftParen {a : Lookahead} {n : Nat} (h : a.kind n = .leftParen)
    (word : Keyword) : a.isKeyword n word = false := by
  unfold kind at h
  simp [isKeyword, Token.isKeyword, Token.keyword?, h]

theorem isOneOf_of_leftParen {a : Lookahead} {n : Nat} (h : a.kind n = .leftParen)
    (words : List Keyword) : a.isOneOf n words = false := by
  unfold kind at h
  simp [isOneOf, Token.isOneOf, Token.keyword?, h]

theorem isWord_of_leftParen {a : Lookahead} {n : Nat} (h : a.kind n = .leftParen)
    (word : String) : a.isWord n word = false := by
  unfold kind at h
  simp [isWord, Token.isWord, h]

theorem isKeyword_of_kind {a : Lookahead} {n : Nat} {word : Keyword}
    (h : a.kind n = .keyword word) : a.isKeyword n word := by
  unfold kind at h
  simp [isKeyword, Token.isKeyword, Token.keyword?, h]

theorem kind_of_isKeyword {a : Lookahead} {n : Nat} {word : Keyword} (h : a.isKeyword n word) :
    a.kind n = .keyword word :=
  Token.kind_of_isKeyword h

theorem isKeyword_of_kind_ne {a : Lookahead} {n : Nat} {word other : Keyword}
    (h : a.kind n = .keyword word) (hne : word ≠ other) : a.isKeyword n other = false := by
  rw [Bool.eq_false_iff]
  intro hother
  have hkind := kind_of_isKeyword hother
  rw [h] at hkind
  exact hne (TokenKind.keyword.inj hkind)

section

variable {a : Lookahead} {n : Nat}

theorem keyword?_of_not_startsRun (h : ¬(a.kind n).startsRun) : a.keyword? n = none := by
  unfold keyword? Token.keyword?
  unfold kind TokenKind.startsRun at h
  split
  · rename_i word hk
    simp [hk] at h
  · rfl

theorem isKeyword_of_not_startsRun (h : ¬(a.kind n).startsRun) (word : Keyword) :
    a.isKeyword n word = false := by
  have hnone : (a.token n).keyword? = none := keyword?_of_not_startsRun h
  simp [isKeyword, Token.isKeyword, hnone]

theorem isOneOf_of_not_startsRun (h : ¬(a.kind n).startsRun) (words : List Keyword) :
    a.isOneOf n words = false := by
  have hnone : (a.token n).keyword? = none := keyword?_of_not_startsRun h
  simp [isOneOf, Token.isOneOf, hnone]

theorem isWord_of_not_startsRun (h : ¬(a.kind n).startsRun) (word : String) :
    a.isWord n word = false := by
  unfold isWord Token.isWord
  unfold kind TokenKind.startsRun at h
  split
  · rename_i hk
    simp [hk] at h
  · rename_i hk
    simp [hk] at h
  · rfl

end

theorem lt_length_of_kind {a : Lookahead} (hstop : a.stop.kind = .eof) {n : Nat}
    (hn : a.kind n ≠ .eof) : n < a.rest.length := by
  apply Decidable.byContradiction
  intro hge
  apply hn
  unfold kind
  rw [token_of_le (Nat.le_of_not_lt hge), hstop]

theorem exists_cons_of_kind {a : Lookahead} (hstop : a.stop.kind = .eof) {k : TokenKind}
    (hk : a.kind 0 = k) (heof : k ≠ .eof) : ∃ t ts, a.rest = t :: ts ∧ t.kind = k := by
  have hlt : 0 < a.rest.length := lt_length_of_kind hstop (hk ▸ heof)
  obtain ⟨t, ts, hrest⟩ := List.exists_cons_of_length_pos hlt
  refine ⟨t, ts, hrest, ?_⟩
  rw [← hk, kind, token_of_lt hlt]
  simp only [hrest, List.getElem_cons_zero]

theorem closingParen?_bounds {ts : List Token} {depth index close : Nat}
    (h : closingParen? depth index ts = some close) : index ≤ close ∧ close < index + ts.length := by
  induction ts generalizing depth index with
  | nil => contradiction
  | cons t ts ih =>
    unfold closingParen? at h
    simp only [List.length_cons]
    split at h
    · have := ih h
      omega
    · split at h
      · simp only [Option.some.injEq] at h
        omega
      · have := ih h
        omega
    · have := ih h
      omega

theorem isKind_of_matchingParen? {a : Lookahead} {n close : Nat}
    (h : a.matchingParen? n = some close) : a.isKind n .leftParen := by
  unfold matchingParen? at h
  split at h
  · assumption
  · contradiction

theorem lt_length_of_matchingParen? {a : Lookahead} {n close : Nat}
    (h : a.matchingParen? n = some close) : n ≤ close ∧ close < a.rest.length := by
  unfold matchingParen? at h
  split at h
  · have := closingParen?_bounds h
    simp only [List.length_drop] at this
    omega
  · contradiction

theorem closingEnd?_le {ts : List Token} {depth index extent : Nat}
    (h : closingEnd? depth index ts = some extent) : extent ≤ index + ts.length := by
  induction ts generalizing depth index with
  | nil => contradiction
  | cons t ts ih =>
    unfold closingEnd? at h
    simp only [List.length_cons]
    split at h
    · have := ih h
      omega
    · split at h
      · simp only [Option.some.injEq] at h
        omega
      · have := ih h
        omega
    · have := ih h
      omega

theorem le_length_of_caseExtent? {a : Lookahead} {n extent : Nat} (hn : n ≤ a.rest.length)
    (h : a.caseExtent? n = some extent) : extent ≤ a.rest.length := by
  unfold caseExtent? at h
  split at h
  · have := closingEnd?_le h
    simp only [List.length_drop] at this
    omega
  · contradiction

end Lookahead

end SqlScript
