import SqlScript.Parsing.Lookahead

/-!
Proper nesting of parentheses and brackets. Looking ahead for the end of a group passes over
separators; in a text that is properly nested it still never leaves the statement it starts in.
-/

namespace SqlScript

namespace Token

/--
Do these tokens close what is open, and everything they open? `closers` are awaited, the innermost
first.
-/
def wellNested (closers : List TokenKind) : List Token → Bool
  | [] => closers.isEmpty
  | t :: ts =>
    match t.kind with
    | .leftParen => wellNested (.rightParen :: closers) ts
    | .leftBracket => wellNested (.rightBracket :: closers) ts
    | .rightParen | .rightBracket =>
      match closers with
      | [] => false
      | closer :: outer => t.kind == closer && wellNested outer ts
    | _ => wellNested closers ts

def properlyNested (ts : List Token) : Bool :=
  wellNested [] ts

/--
The tokens end some properly nested text.
-/
def Closed (ts : List Token) : Prop :=
  ∃ closers, wellNested closers ts

theorem Closed.tail {t : Token} {ts : List Token} (h : Closed (t :: ts)) : Closed ts := by
  obtain ⟨closers, h⟩ := h
  unfold wellNested at h
  split at h
  · exact ⟨_, h⟩
  · exact ⟨_, h⟩
  · split at h
    · contradiction
    · rw [Bool.and_eq_true] at h
      exact ⟨_, h.2⟩
  · split at h
    · contradiction
    · rw [Bool.and_eq_true] at h
      exact ⟨_, h.2⟩
  · exact ⟨_, h⟩

theorem Closed.drop {ts : List Token} (h : Closed ts) (n : Nat) : Closed (ts.drop n) := by
  induction n generalizing ts with
  | zero => exact h
  | succ n ih =>
    cases ts with
    | nil => exact h
    | cons t ts => exact ih h.tail

/--
Is every `CASE` among these tokens that is ended at all ended by one of them? If none of them does,
those behind do not end it either.
-/
def casesEnd (behind : List Token) : List Token → Bool
  | [] => true
  | t :: ts =>
    (!t.isKeyword .CASE || (Lookahead.closingEnd? 0 0 (t :: ts)).isSome ||
      (Lookahead.closingEnd? 0 0 (t :: ts ++ behind)).isNone) && casesEnd behind ts

theorem casesEnd_drop {behind ts : List Token} (h : casesEnd behind ts) (n : Nat) :
    casesEnd behind (ts.drop n) := by
  induction n generalizing ts with
  | zero => exact h
  | succ n ih =>
    cases ts with
    | nil => exact h
    | cons t ts =>
      rw [casesEnd, Bool.and_eq_true] at h
      exact ih h.2

end Token

namespace Lookahead

open Token (wellNested)

theorem isSome_closingEnd? (depth index index' : Nat) (ts : List Token) :
    (closingEnd? depth index' ts).isSome = (closingEnd? depth index ts).isSome := by
  induction ts generalizing depth index index' with
  | nil => rfl
  | cons t ts ih =>
    unfold closingEnd?
    split
    · exact ih ..
    · split
      · rfl
      · exact ih ..
    · exact ih ..

theorem caseExtent?_isSome_of_casesEnd {a a' : Lookahead} {behind : List Token}
    (h : Token.casesEnd behind a.rest) (hrest : a'.rest = a.rest ++ behind)
    (hstop : a.stop.kind = .eof) {n : Nat} (hn : a.isKeyword n .CASE)
    (hsome : (a'.caseExtent? n).isSome) : (a.caseExtent? n).isSome := by
  have hlt : n < a.rest.length := by
    apply Decidable.byContradiction
    intro hge
    unfold isKeyword token at hn
    rw [List.getElem?_eq_none (Nat.le_of_not_lt hge)] at hn
    simp [Token.isKeyword, Token.keyword?, hstop] at hn
  have hended : (closingEnd? 0 0 (a.rest.drop n ++ behind)).isSome := by
    unfold caseExtent? at hsome
    split at hsome
    · rw [isSome_closingEnd? 0 0, hrest, List.drop_append_of_le_length (Nat.le_of_lt hlt)] at hsome
      exact hsome
    · contradiction
  unfold caseExtent?
  rw [if_pos hn, isSome_closingEnd? 0 0]
  unfold isKeyword token at hn
  rw [List.getElem?_eq_getElem hlt, Option.getD_some] at hn
  have hdrop := Token.casesEnd_drop h n
  rw [List.drop_eq_getElem_cons hlt] at hended hdrop ⊢
  rw [Token.casesEnd, hn, Bool.and_eq_true, Bool.or_eq_true] at hdrop
  apply hdrop.1.resolve_right
  intro hnone
  rw [Option.isNone_iff_eq_none.1 hnone] at hended
  contradiction

theorem closingParen?_isSome_of_wellNested {closers : List TokenKind} {ts : List Token}
    (h : wellNested closers ts) {depth : Nat} (hpos : 0 < depth)
    (hdepth : depth ≤ closers.count .rightParen) (index : Nat) :
    (closingParen? depth index ts).isSome := by
  induction ts generalizing closers depth index with
  | nil =>
    unfold wellNested at h
    rw [List.isEmpty_iff] at h
    subst h
    simp at hdepth
    omega
  | cons t ts ih =>
    unfold wellNested at h
    unfold closingParen?
    split
    · rename_i hk
      simp only [hk] at h
      apply ih h
      · omega
      · simp
        omega
    · rename_i hk
      simp only [hk] at h
      split
      · rfl
      · split at h
        · contradiction
        · rw [Bool.and_eq_true] at h
          apply ih h.2
          · omega
          · rw [← eq_of_beq h.1] at hdepth
            simp at hdepth
            omega
    · split at h
      · simp_all
      · exact ih h hpos (by simpa using hdepth) _
      · simp_all
      · split at h
        · contradiction
        · rw [Bool.and_eq_true] at h
          apply ih h.2 hpos
          rw [← eq_of_beq h.1] at hdepth
          simp_all
      · exact ih h hpos hdepth _

end Lookahead

end SqlScript
