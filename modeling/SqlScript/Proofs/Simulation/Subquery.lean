import SqlScript.Proofs.Simulation.Group

/-!
Subqueries in two runs. A run that may nest less deeply takes a long run of parentheses for a
subquery; where the other run does not, there are more of them than may nest, and the first run ends
in that complaint.
-/

namespace SqlScript

theorem isKind_of_leadingParens {c : Setting} {ts : List Token} (h : 0 < leadingParens ts) :
    (c.ahead ts).isKind 0 .leftParen := by
  cases ts with
  | nil => simp [leadingParens] at h
  | cons t ts =>
    unfold leadingParens at h
    rw [List.takeWhile_cons] at h
    split at h
    · assumption
    · simp at h

theorem leadingParens_tail {ts : List Token} (h : 0 < leadingParens ts) :
    leadingParens ts = leadingParens ts.tail + 1 := by
  cases ts with
  | nil => simp [leadingParens] at h
  | cons t ts =>
    unfold leadingParens at h ⊢
    rw [List.takeWhile_cons] at h ⊢
    split at h
    · rw [if_pos ‹_›]
      rfl
    · simp at h

/--
A question that two lookaheads answer alike, unless more parentheses are opened than the first may
nest; then the answer of the first is yes.
-/
def Detours (q : Lookahead → Bool) : Prop :=
  ∀ ⦃a a'⦄, Sees a a' →
    q a' = q a ∨ a.limit < a'.limit ∧ a.limit < leadingParens a.rest ∧ q a

namespace Detours

variable {q r : Lookahead → Bool}

theorem opensSubquery (starts : List Keyword) : Detours (·.opensSubquery 0 starts) :=
  fun _ _ hs => hs.opensSubquery (n := 0) (.inl (Nat.zero_le _)) starts

theorem or [hr : Steady 0 r] (hq : Detours q) : Detours fun a => r a || q a := by
  intro a a' hs
  dsimp only
  rw [hr.eq hs (.inl (Nat.zero_le _))]
  obtain heq | ⟨hlimit, hparens, hyes⟩ := hq hs
  · exact .inl (by rw [heq])
  · exact .inr ⟨hlimit, hparens, by rw [hyes, Bool.or_true]⟩

theorem and (hq : Detours q) (hr : ∀ ⦃a a'⦄, Sees a a' → r a' = r a) :
    Detours fun a => q a && r a := by
  intro a a' hs
  dsimp only
  rw [hr hs]
  obtain heq | ⟨hlimit, hparens, hyes⟩ := hq hs
  · exact .inl (by rw [heq])
  · rw [hyes]
    cases r a with
    | false => exact .inl (Bool.and_false _)
    | true => exact .inr ⟨hlimit, hparens, rfl⟩

/-- A select behind `IN (`, unless it is but the first item of a list. -/
theorem selectSource : Detours fun a => a.isKeyword 0 .SELECT ||
    (a.opensSubquery 0 [.SELECT] && (a.matchingParen? 0).any fun n => !a.isKind (n + 1) .comma) := by
  refine ((opensSubquery [.SELECT]).and ?_).or
  intro a a' hs
  rw [hs.matchingParen? (.inl (Nat.zero_le _))]
  cases hclose : a.matchingParen? 0 with
  | none => rfl
  | some n =>
    have hlt := (Lookahead.lt_length_of_matchingParen? hclose).2
    exact hs.ask (fun a => !a.isKind (n + 1) .comma) (.inl hlt)

end Detours

namespace Simulation

variable {ρ : Type} {α : Type} (σ : Simulation ρ) {need take : Nat}

/--
If the first run may nest less deeply than the second, it does not get through more parentheses than
it may nest.
-/
def Deep (n : Nat) (p : Parser ρ α) : Prop :=
  σ.small.limit < σ.large.limit → ∀ s : ParserState ρ, n ≤ leadingParens s.rest →
    Parser.Fails σ.small σ.excused p s

variable {σ}

namespace Deep

variable {n : Nat} {p : Parser ρ Unit}

theorem weaken {k : Nat} (h : σ.Deep n p) (hk : n ≤ k) : σ.Deep k p :=
  fun hlimit s hs => h hlimit s (Nat.le_trans hk hs)

theorem bind {β : Type} {f : Unit → Parser ρ β} (h : σ.Deep n p) : σ.Deep n (p >>= f) :=
  fun hlimit s hs => (h hlimit s hs).bind

theorem production {rule : ρ} (h : σ.Deep n p) : σ.Deep n (Parser.production rule p) :=
  fun hlimit s hs => (h hlimit (s.build (·.start rule)) hs).production

theorem parenthesized (h : σ.Deep n p) : σ.Deep (n + 1) (Parser.parenthesized p) := by
  intro hlimit s hs
  have hpos : 0 < leadingParens s.rest := by omega
  have htail := leadingParens_tail hpos
  have hadvance : n ≤ leadingParens s.advance.rest := by
    rw [ParserState.rest_advance]
    omega
  exact (h hlimit s.advance hadvance).parenthesized (isKind_of_leadingParens hpos)

theorem eatIf_bind {α : Type} {q : Lookahead → Bool} {f : Bool → Parser ρ α}
    (hq : ∀ a : Lookahead, a.kind 0 = .leftParen → q a = false) (h : σ.Deep (n + 1) (f false)) :
    σ.Deep (n + 1) (Parser.eatIf q >>= f) := by
  intro hlimit s hs
  have hparen : (σ.small.ahead s.rest).isKind 0 .leftParen := isKind_of_leadingParens (by omega)
  apply (h hlimit s hs).after
  rw [Parser.eatIf_eq, hq _ (TokenKind.eq_leftParen_of_alike hparen)]
  rfl

theorem ifSees_bind {α : Type} {q : Lookahead → Bool} {b : Parser ρ Unit} {g : Parser ρ α}
    (hq : ∀ a : Lookahead, a.kind 0 = .leftParen → q a = false) (h : σ.Deep (n + 1) g) :
    σ.Deep (n + 1) (Parser.ifSees q b >>= fun _ => g) := by
  intro hlimit s hs
  have hparen : (σ.small.ahead s.rest).isKind 0 .leftParen := isKind_of_leadingParens (by omega)
  apply (h hlimit s hs).after
  rw [Parser.ifSees_eq, hq _ (TokenKind.eq_leftParen_of_alike hparen)]
  rfl

theorem optionalKeyword (word : Keyword) (h : σ.Deep (n + 1) p) :
    σ.Deep (n + 1) (Parser.optionalKeyword word >>= fun _ => p) := by
  intro hlimit s hs
  have hparen : (σ.small.ahead s.rest).isKind 0 .leftParen := isKind_of_leadingParens (by omega)
  apply (h hlimit s hs).after
  rw [Parser.optionalKeyword_eq,
    Lookahead.isKeyword_of_leftParen (TokenKind.eq_leftParen_of_alike hparen)]
  rfl

theorem ite {α : Type} {q : Lookahead → Bool} {g h : Parser ρ α} (hg : σ.Deep n g)
    (hh : σ.Deep n h) : σ.Deep n (Parser.sees q >>= fun b => if b = true then g else h) := by
  intro hlimit s hs
  apply Parser.Fails.sees
  split
  · exact hg hlimit s hs
  · exact hh hlimit s hs

theorem sees_ite {α : Type} {q : Lookahead → Bool} {g h : Parser ρ α}
    (hq : ∀ a : Lookahead, a.kind 0 = .leftParen → q a) (hg : σ.Deep (n + 1) g) :
    σ.Deep (n + 1) (Parser.sees q >>= fun b => if b = true then g else h) := by
  intro hlimit s hs
  have hparen : (σ.small.ahead s.rest).isKind 0 .leftParen := isKind_of_leadingParens (by omega)
  apply Parser.Fails.sees
  rw [if_pos (hq _ (TokenKind.eq_leftParen_of_alike hparen))]
  exact hg hlimit s hs

end Deep

namespace Respects

variable {g g' h h' : Parser ρ α}

theorem tooDeep_of_limit (h : σ.small.limit < σ.large.limit ∨ g' = Parser.tooDeep) :
    σ.Respects need take Parser.tooDeep g' := by
  obtain hlimit | rfl := h
  · exact ⟨fun _ _ _ _ => .excused (σ.tooDeep hlimit _), forward_of_limit hlimit⟩
  · exact tooDeep

theorem detour_ite {q : Lookahead → Bool} (hq : Detours q)
    (hg : σ.Respects 0 take g g') (hh : σ.Respects need take h h')
    (hdeep : σ.Deep (σ.small.limit + 1) g) :
    σ.Respects need take (Parser.sees q >>= fun b => if b = true then g else h)
      (Parser.sees q >>= fun b => if b = true then g' else h') where
  run s s' hs hreach := by
    rw [Parser.sees_bind, Parser.sees_bind]
    obtain heq | ⟨hlimit, hparens, hopens⟩ := hq (σ.sees hs)
    · rw [heq]
      split
      · exact hg hs (Nat.zero_le _)
      · exact hh hs hreach
    · rw [if_pos hopens]
      exact .of_error (hdeep hlimit s hparens)
  forward hb := .sees_ite (hg.forward hb) (hh.forward hb)

theorem opensSubquery_ite (starts : List Keyword) (hg : σ.Respects 0 take g g')
    (hh : σ.Respects need take h h') (hdeep : σ.Deep (σ.small.limit + 1) g) :
    σ.Respects need take
      (Parser.sees (·.opensSubquery 0 starts) >>= fun b => if b = true then g else h)
      (Parser.sees (·.opensSubquery 0 starts) >>= fun b => if b = true then g' else h') :=
  detour_ite (.opensSubquery starts) hg hh hdeep

theorem unlessSubquery_bind (starts : List Keyword) {b b' : Parser ρ Unit}
    (hb : σ.Respects 1 0 b b') (hg : σ.Respects 0 take g g')
    (hdeep : σ.Deep (σ.small.limit + 1) g) :
    σ.Respects need take
      (Parser.ifSees (fun a => a.isKind 0 .leftParen && !a.opensSubquery 0 starts) b >>= fun _ => g)
      (Parser.ifSees (fun a => a.isKind 0 .leftParen && !a.opensSubquery 0 starts) b' >>=
        fun _ => g') where
  run s s' hs _ := by
    have hsees := σ.sees hs
    have h₀ : Covers (σ.small.ahead s.rest) (σ.large.ahead s'.rest) 0 := .inl (Nat.zero_le _)
    obtain heq | ⟨hlimit, hparens, hopens⟩ := hsees.opensSubquery h₀ starts
    · have hskip : σ.Outcome (fun _ t t' => σ.After 0 s t t')
          (Parser.ifSees (fun a => a.isKind 0 .leftParen && !a.opensSubquery 0 starts) b σ.small s)
          (Parser.ifSees (fun a => a.isKind 0 .leftParen && !a.opensSubquery 0 starts) b'
            σ.large s') := by
        rw [Parser.ifSees_eq, Parser.ifSees_eq, heq, hsees.ask (·.isKind 0 .leftParen) h₀]
        split
        · rename_i h
          rw [Bool.and_eq_true] at h
          exact hb hs (Firm.le_reach (q := (·.isKind 0 .leftParen)) hsees.stop h.1)
        · exact .ok (After.refl hs)
      apply hskip.bind _ fun _ => hg.forward
      intro _ t t' ht
      apply (hg ht.rel (Nat.zero_le _)).mono
      intro _ _ _ hu
      exact (ht.trans hu).weaken (by omega)
    · have hskip : Parser.ifSees (fun a => a.isKind 0 .leftParen && !a.opensSubquery 0 starts) b
          σ.small s = .ok () s := by
        rw [Parser.ifSees_eq, hopens, Bool.not_true, Bool.and_false]
        rfl
      exact .of_error ((hdeep hlimit s hparens).after hskip)
  forward hbehind := (Parser.Forward.ifSees _ (hb.forward hbehind)).bind fun _ => hg.forward hbehind

end Respects

end Simulation

end SqlScript
