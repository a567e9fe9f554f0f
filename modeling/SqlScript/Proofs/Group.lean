import SqlScript.Proofs.Lookahead
import SqlScript.Proofs.Run

/-!
What a group in parentheses takes: the tokens up to the parenthesis that closes it.
-/

namespace SqlScript

namespace Lookahead

theorem closingParen?_add (k depth index : Nat) (ts : List Token) :
    closingParen? depth (index + k) ts = (closingParen? depth index ts).map (· + k) := by
  induction ts generalizing depth index with
  | nil => rfl
  | cons t ts ih =>
    unfold closingParen?
    have hindex : index + k + 1 = index + 1 + k := by omega
    rw [hindex]
    split
    · exact ih ..
    · split
      · rfl
      · exact ih ..
    · exact ih ..

section

variable (c : Setting) (ts : List Token) (k n : Nat)

/-! Behind the first `k` tokens the others are asked for alike. -/

theorem kind_drop : (c.ahead (ts.drop k)).kind n = (c.ahead ts).kind (k + n) :=
  congrArg Token.kind (token_drop c ts k n)

theorem isKind_drop (kind : TokenKind) :
    (c.ahead (ts.drop k)).isKind n kind = (c.ahead ts).isKind (k + n) kind :=
  congrArg (·.kind.alike kind) (token_drop c ts k n)

theorem isKeyword_drop (word : Keyword) :
    (c.ahead (ts.drop k)).isKeyword n word = (c.ahead ts).isKeyword (k + n) word :=
  congrArg (·.isKeyword word) (token_drop c ts k n)

theorem isWord_drop (word : String) :
    (c.ahead (ts.drop k)).isWord n word = (c.ahead ts).isWord (k + n) word :=
  congrArg (·.isWord word) (token_drop c ts k n)

theorem matchingParen?_drop :
    (c.ahead ts).matchingParen? (k + n) = ((c.ahead (ts.drop k)).matchingParen? n).map (· + k) := by
  unfold matchingParen?
  rw [isKind_drop]
  split
  · rw [Nat.add_comm k n, closingParen?_add]
    simp only [Setting.rest_ahead, List.drop_drop, Nat.add_comm n k]
  · rfl

end

end Lookahead

/--
Tokens that close all that is open, and everything they open; a separator, or what satisfies `stop`,
stands only where something is open. `closers` are awaited, the innermost first.
-/
inductive Balanced (stop : Token → Bool) : List TokenKind → List Token → Prop
  | nil : Balanced stop [] []
  | paren {t : Token} {closers : List TokenKind} {ts : List Token} (h : t.kind = .leftParen)
    (rest : Balanced stop (.rightParen :: closers) ts) : Balanced stop closers (t :: ts)
  | bracket {t : Token} {closers : List TokenKind} {ts : List Token} (h : t.kind = .leftBracket)
    (rest : Balanced stop (.rightBracket :: closers) ts) : Balanced stop closers (t :: ts)
  | close {t : Token} {closers : List TokenKind} {ts : List Token}
    (h : t.kind = .rightParen ∨ t.kind = .rightBracket) (rest : Balanced stop closers ts) :
    Balanced stop (t.kind :: closers) (t :: ts)
  | inner {t : Token} {closers : List TokenKind} {ts : List Token}
    (h : t.kind ∉ [TokenKind.leftParen, .leftBracket, .rightParen, .rightBracket])
    (hsemi : t.kind = .semicolon → closers ≠ []) (hstop : stop t → closers ≠ [])
    (rest : Balanced stop closers ts) : Balanced stop closers (t :: ts)

namespace Balanced

variable {stop : Token → Bool}

def From (stop : Token → Bool) (closers : List TokenKind) (n m : Nat) (ts : List Token) : Prop :=
  ∃ us vs, ts = us ++ vs ∧ m = n + us.length ∧ Balanced stop closers us

theorem From.here (n : Nat) (ts : List Token) : From stop [] n n ts :=
  ⟨[], ts, rfl, rfl, .nil⟩

theorem From.step {closers outer : List TokenKind} {n m : Nat} {t : Token} {ts : List Token}
    (h : From stop closers (n + 1) m ts)
    (ht : ∀ us, Balanced stop closers us → Balanced stop outer (t :: us)) :
    From stop outer n m (t :: ts) := by
  obtain ⟨us, vs, rfl, rfl, hus⟩ := h
  refine ⟨t :: us, vs, rfl, ?_, ht us hus⟩
  simp
  omega

theorem of_balancedRun {closers : List TokenKind} {n m : Nat} {ts : List Token}
    (h : Lookahead.balancedRun stop closers n ts = (m, none)) : From stop closers n m ts := by
  induction ts generalizing closers n with
  | nil =>
    unfold Lookahead.balancedRun at h
    cases closers with
    | nil =>
      cases h
      exact From.here ..
    | cons => cases h
  | cons t ts ih =>
    unfold Lookahead.balancedRun at h
    split at h
    · exact (ih h).step fun _ => .paren ‹_›
    · exact (ih h).step fun _ => .bracket ‹_›
    · split at h
      · cases h
        exact From.here ..
      · split at h
        · rename_i hcloser
          rw [← eq_of_beq hcloser]
          exact (ih h).step fun _ => .close (.inl ‹_›)
        · cases h
    · split at h
      · cases h
        exact From.here ..
      · split at h
        · rename_i hcloser
          rw [← eq_of_beq hcloser]
          exact (ih h).step fun _ => .close (.inr ‹_›)
        · cases h
    · split at h
      · rename_i hclosers
        rw [List.isEmpty_iff] at hclosers
        subst hclosers
        cases h
        exact From.here ..
      · rename_i hk hclosers
        rw [List.isEmpty_iff] at hclosers
        exact (ih h).step fun _ => .inner (by simp [hk]) (fun _ => hclosers) fun _ => hclosers
    · split at h
      · rename_i hstop
        rw [Bool.and_eq_true, List.isEmpty_iff] at hstop
        obtain ⟨rfl, -⟩ := hstop
        cases h
        exact From.here ..
      · rename_i hsemi hstop
        have hclosers : stop t → closers ≠ [] := by
          rintro ht rfl
          exact hstop (by rw [ht]; rfl)
        have hinner : t.kind ∉ [TokenKind.leftParen, .leftBracket, .rightParen, .rightBracket] := by
          simp only [List.mem_cons, List.not_mem_nil, or_false, not_or]
          exact ⟨‹_›, ‹_›, ‹_›, ‹_›⟩
        exact (ih h).step fun _ => .inner hinner (fun hk => absurd hk hsemi) hclosers

theorem getLast {closers : List TokenKind} {us : List Token} (h : Balanced stop closers us) :
    ∀ t ∈ us.getLast?, t.kind ≠ .semicolon := by
  have step : ∀ {t : Token} {us : List Token}, (us = [] → t.kind ≠ .semicolon) →
      (∀ t ∈ us.getLast?, t.kind ≠ .semicolon) →
      ∀ t' ∈ (t :: us).getLast?, t'.kind ≠ .semicolon := by
    intro t us ht hus
    rw [List.getLast?_cons]
    cases hlast : us.getLast? with
    | none => simpa using ht (List.getLast?_eq_none_iff.1 hlast)
    | some last => simpa using hus last hlast
  induction h with
  | nil => simp
  | paren h _ ih => exact step (fun _ => by simp [h]) ih
  | bracket h _ ih => exact step (fun _ => by simp [h]) ih
  | close h _ ih => exact step (fun _ => by obtain h | h := h <;> simp [h]) ih
  | inner h hsemi hstop rest ih =>
    apply step _ ih
    rintro rfl hk
    cases rest
    exact hsemi hk rfl

theorem closingParen? {closers : List TokenKind} {us : List Token} (h : Balanced stop closers us)
    {depth : Nat} (hdepth : 0 < depth) (index : Nat) (vs : List Token) :
    Lookahead.closingParen? (depth + closers.count .rightParen) index (us ++ vs) =
      Lookahead.closingParen? depth (index + us.length) vs := by
  induction h generalizing index with
  | nil => rfl
  | paren h _ ih =>
    rw [List.cons_append, Lookahead.closingParen?]
    simp only [h]
    rw [List.count_cons_self, ← Nat.add_assoc] at ih
    rw [ih, List.length_cons]
    congr 1
    omega
  | bracket h _ ih =>
    rw [List.cons_append, Lookahead.closingParen?]
    simp only [h]
    rw [List.count_cons_of_ne (by decide)] at ih
    rw [ih, List.length_cons]
    congr 1
    omega
  | close h _ ih =>
    rw [List.cons_append, Lookahead.closingParen?]
    cases h with
    | inl h =>
      simp only [h, List.count_cons_self]
      rw [if_neg (by omega), ← Nat.add_assoc, Nat.add_sub_cancel, ih, List.length_cons]
      congr 1
      omega
    | inr h =>
      simp only [h]
      rw [List.count_cons_of_ne (by decide), ih, List.length_cons]
      congr 1
      omega
  | inner h hsemi hstop rest ih =>
    have hlength (t : Token) (us : List Token) :
        index + (t :: us).length = index + 1 + us.length := by
      rw [List.length_cons]
      omega
    rw [List.cons_append, hlength, ← ih, Lookahead.closingParen?]
    simp only [List.mem_cons, List.not_mem_nil, or_false, not_or] at h
    split
    · exact absurd ‹_› h.1
    · exact absurd ‹_› h.2.2.1
    · rfl

end Balanced

namespace Parser

variable {ρ : Type} {c : Setting} {s t : ParserState ρ}

theorem bumpBalancedUntil_ok {stop : Token → Bool}
    (h : (bumpBalancedUntil stop : Parser ρ Unit) c s = .ok () t) :
    ∃ us, s.rest = us ++ t.rest ∧ Balanced stop [] us := by
  unfold bumpBalancedUntil at h
  rw [ahead_bind] at h
  simp only [Setting.rest_ahead] at h
  rcases hrun : Lookahead.balancedRun stop [] 0 s.rest with ⟨n, missing⟩
  rw [hrun] at h
  obtain ⟨_, u, hu, hmissing⟩ := bind_eq_ok h
  cases missing with
  | some closer => cases hmissing
  | none =>
    cases hmissing
    obtain ⟨t', ht', hrest⟩ := bumpN_ok (c := c) n s
    have heq : t = t' := by
      have := hu.symm.trans ht'
      cases this
      rfl
    obtain ⟨us, vs, hus, hn, hbalanced⟩ := Balanced.of_balancedRun hrun
    refine ⟨us, ?_, hbalanced⟩
    rw [heq, hrest, hus, hn, Nat.zero_add, List.drop_left]

theorem bumpGroup_ok (hparen : (c.ahead s.rest).isKind 0 .leftParen)
    (hstop : c.stop.kind = .eof) (h : (bumpGroup : Parser ρ Unit) c s = .ok () t) :
    ∃ close, (c.ahead s.rest).matchingParen? 0 = some close ∧ t.rest = s.rest.drop (close + 1) := by
  have hkind : (c.ahead s.rest).kind 0 = .leftParen := TokenKind.eq_leftParen_of_alike hparen
  unfold Lookahead.matchingParen?
  rw [if_pos hparen, List.drop_zero]
  simp only [Setting.rest_ahead]
  unfold bumpGroup at h
  rw [sees_bind, hkind] at h
  change (bumpGroup.group .rightParen : Parser ρ Unit) c s = _ at h
  unfold bumpGroup.group at h
  rw [bind_ok bump_eq] at h
  obtain ⟨_, v, hv, h⟩ := bind_eq_ok h
  obtain ⟨us, hus, hbalanced⟩ := bumpBalancedUntil_ok hv
  unfold expect at h
  rw [expectIf_eq] at h
  split at h
  · rename_i hclose
    cases h
    have hclose : (c.ahead v.rest).kind 0 = .rightParen := TokenKind.eq_rightParen_of_alike hclose
    obtain ⟨t, ts, hs, ht⟩ := Lookahead.exists_cons_of_kind (a := c.ahead s.rest) hstop hkind
      (by decide)
    obtain ⟨t', vs, hvs, ht'⟩ := Lookahead.exists_cons_of_kind (a := c.ahead v.rest) hstop hclose
      (by decide)
    simp only [Setting.rest_ahead] at hs hvs
    rw [ParserState.rest_advance, hs, List.tail_cons, hvs] at hus
    rw [ParserState.rest_advance, hvs, hs, hus]
    refine ⟨1 + us.length, ?_, ?_⟩
    · have hbehind := hbalanced.closingParen? (Nat.zero_lt_one) 1 (t' :: vs)
      unfold Lookahead.closingParen?
      simp only [ht, Nat.zero_add]
      rw [List.count_nil, Nat.add_zero] at hbehind
      rw [hbehind]
      unfold Lookahead.closingParen?
      simp [ht']
    · rw [show 1 + us.length + 1 = us.length + 1 + 1 from by omega]
      rw [List.drop_succ_cons, ← List.drop_drop, List.drop_left, List.drop_one]
  · cases h

theorem bumpGroup_drop {ts : List Token} {k : Nat} (hs : s.rest = ts.drop k)
    (hparen : (c.ahead ts).isKind k .leftParen) (hstop : c.stop.kind = .eof)
    (h : (bumpGroup : Parser ρ Unit) c s = .ok () t) :
    ∃ close, (c.ahead ts).matchingParen? k = some close ∧ t.rest = ts.drop (close + 1) := by
  have hfront : (c.ahead s.rest).isKind 0 .leftParen := by
    rwa [hs, Lookahead.isKind_drop]
  obtain ⟨close, hclose, hrest⟩ := bumpGroup_ok hfront hstop h
  refine ⟨close + k, ?_, ?_⟩
  · have hdrop := Lookahead.matchingParen?_drop c ts k 0
    rw [← hs, hclose] at hdrop
    exact hdrop
  · rw [hrest, hs, List.drop_drop]
    congr 1
    omega

end Parser

end SqlScript
