import SqlScript.Proofs.Simulation.Basic
import SqlScript.Parsing.Chain

/-!
Loops of two runs. The second run may be allowed more rounds than the first, but neither uses them
up: a step that goes on takes a token.
-/

namespace SqlScript

/--
Does the token in front belong to the literal behind it, as a sign does?
-/
def Lookahead.hasLiteralSign (a : Lookahead) : Bool :=
  a.isKind 0 .minus || a.isKind 0 .plus || a.isKind 0 (.identifier "")

instance : Steady 0 Lookahead.hasLiteralSign :=
  inferInstanceAs (Steady 0 fun a =>
    a.isKind 0 .minus || a.isKind 0 .plus || a.isKind 0 (.identifier ""))

namespace Simulation

variable {ρ : Type} {α β : Type} {σ : Simulation ρ} {need take n : Nat}

structure Steps (σ : Simulation ρ) (need : Nat) (p p' : Parser ρ Bool) : Prop where
  run ⦃s s' : ParserState ρ⦄ : σ.rel s s' → need ≤ reach s.rest →
    σ.Outcome (fun more t t' => σ.After (if more then 1 else 0) s t t') (p σ.small s) (p' σ.large s')
  forward : σ.Forward p'

/--
The states after a round of a loop: either there are fewer tokens left for the next round, or the
loop ends.
-/
def Round (J Q : β → ParserState ρ → ParserState ρ → Prop) (v : β) (s : ParserState ρ) :
    Option β → ParserState ρ → ParserState ρ → Prop
  | some w, t, t' => J w t t' ∧ t.rest.length < s.rest.length
  | none, t, t' => Q v t t'

namespace Outcome

/-- The induction is on the rounds; `J` holds whenever a step begins. -/
theorem iterate_go {J Q : β → ParserState ρ → ParserState ρ → Prop}
    {step step' : β → Parser ρ (Option β)}
    (hstep : ∀ v s s', J v s s' →
      σ.Outcome (Round J Q v s) (step v σ.small s) (step' v σ.large s'))
    (hforward : ∀ v, σ.Forward (step' v)) (rounds rounds' : List Token) {v : β}
    {s s' : ParserState ρ} (hinv : J v s s')
    (hlen : s.rest.length < rounds.length) (hlen' : s.rest.length < rounds'.length) :
    σ.Outcome Q (Parser.iterate.go step rounds v σ.small s)
      (Parser.iterate.go step' rounds' v σ.large s') := by
  induction rounds generalizing rounds' v s s' with
  | nil => simp at hlen
  | cons r rounds ih =>
    cases rounds' with
    | nil => simp at hlen'
    | cons r' rounds' =>
      unfold Parser.iterate.go
      apply (hstep v s s' hinv).bind
      · intro next t t' ht
        cases next with
        | none => exact .ok ht
        | some w =>
          obtain ⟨hinv, hlt⟩ := ht
          simp only [List.length_cons] at hlen hlen'
          apply ih _ hinv
          · omega
          · omega
      · intro next hbehind
        cases next with
        | none => exact .pure v
        | some w => exact .iterate_go (fun v => hforward v hbehind) rounds' w

theorem iterate {J Q : β → ParserState ρ → ParserState ρ → Prop}
    {step step' : β → Parser ρ (Option β)}
    (hstep : ∀ v s s', J v s s' →
      σ.Outcome (Round J Q v s) (step v σ.small s) (step' v σ.large s'))
    (hforward : ∀ v, σ.Forward (step' v)) {v : β} {s s' : ParserState ρ} (hs : σ.rel s s')
    (hinv : J v s s') :
    σ.Outcome Q (Parser.iterate step v σ.small s) (Parser.iterate step' v σ.large s') := by
  unfold Parser.iterate
  rw [Parser.ahead_bind, Parser.ahead_bind]
  have hle : s.rest.length ≤ s'.rest.length := (σ.sees hs).rest.length_le
  apply iterate_go hstep hforward _ _ hinv
  · exact Nat.lt_succ_self _
  · exact Nat.lt_succ_of_le hle

end Outcome

namespace Chain

variable {m m' : Nat} {s t t' : ParserState ρ}

/--
The states of two runs between the links of a chain: while there is a chain, its production is the
one that is open.
-/
structure Linked (σ : Simulation ρ) (s : ParserState ρ) (chain? : Option (InfixOperator ρ))
    (t t' : ParserState ρ) : Prop where
  rel : σ.rel t t'
  took : Took 0 s.rest t.rest
  opened : match chain? with
    | none => t.builder.opened = s.builder.opened
    | some _ => ∃ e, t.builder.opened = e :: s.builder.opened

theorem closeChain {chain? : Option (InfixOperator ρ)} (h : Linked σ s chain? t t') :
    σ.Outcome (fun _ u u' => Linked σ s none u u' ∧ u.rest = t.rest)
      (Parser.closeChain chain? σ.small t) (Parser.closeChain chain? σ.large t') := by
  cases chain? with
  | none => exact .ok ⟨h, rfl⟩
  | some operator =>
    obtain ⟨e, he⟩ := h.opened
    apply Outcome.ok
    refine ⟨⟨σ.finish h.rel (by simp [he]), h.took, ?_⟩, rfl⟩
    simp [Tree.Builder.finish, he]

variable [DecidableEq ρ] {sign sign' : Parser ρ Unit} {operand operand' : Nat → Parser ρ Unit}

theorem link (operator? : Lookahead → Option (InfixOperator ρ)) [hsteady : Steady 0 operator?]
    [hfirm : Firm 1 fun a => (operator? a).isSome]
    (hm : σ.mark m m') (least : Nat) (hsign : σ.Respects 1 1 sign sign')
    (hoperand : ∀ k, σ.Respects 0 0 (operand k) (operand' k))
    {chain? : Option (InfixOperator ρ)} (h : Linked σ s chain? t t') :
    σ.Outcome (Round (Linked σ s) (Linked σ s) chain? t)
      (Parser.infixChain.link m least operator? sign operand chain? σ.small t)
      (Parser.infixChain.link m' least operator? sign' operand' chain? σ.large t') := by
  unfold Parser.infixChain.link
  rw [Parser.sees_bind, Parser.sees_bind, hsteady.eq (σ.sees h.rel) (.inl (Nat.zero_le _))]
  cases hoperator : operator? (σ.small.ahead t.rest) with
  | none => exact .ok h
  | some operator =>
    have hreach : 1 ≤ reach t.rest := hfirm.le_reach (σ.sees h.rel).stop (by simp [hoperator])
    simp only
    split
    · exact .ok h
    · have hright : σ.Respects 0 0
          (do operand (operator.strength + 1); pure (some (some operator)) :
            Parser ρ (Option (Option (InfixOperator ρ))))
          (do operand' (operator.strength + 1); pure (some (some operator))) :=
        (hoperand _).bind_left fun _ => Respects.pure _
      have hlink : ∀ v v', Linked σ s (some operator) v v' → v.rest = t.rest →
          σ.Outcome (Round (Linked σ s) (Linked σ s) chain? t)
          ((do sign; operand (operator.strength + 1); pure (some (some operator)) :
            Parser ρ (Option (Option (InfixOperator ρ)))) σ.small v)
          ((do sign'; operand' (operator.strength + 1); pure (some (some operator)) :
            Parser ρ (Option (Option (InfixOperator ρ)))) σ.large v') := by
        intro v v' hv hrest
        apply (hsign hv.rel (hrest ▸ hreach)).bind _ fun _ => hright.forward
        intro _ u u' hu
        apply (hoperand _ hu.rel (Nat.zero_le _)).bind _ fun _ _ => .pure _
        intro _ w w' hw
        have hafter := hu.trans hw
        have hlength := hafter.took.length_le
        apply Outcome.ok
        refine ⟨⟨hw.rel, (hv.took.trans hafter.took).weaken (Nat.zero_le _), ?_⟩, ?_⟩
        · rw [hafter.opened]
          exact hv.opened
        · rw [hrest] at hlength
          omega
      split
      · apply (closeChain h).bind
        · intro _ u u' hu
          apply hlink
          · refine ⟨σ.startAt operator.rule hu.1.rel hm, hu.1.took, ?_⟩
            exact ⟨_, congrArg _ hu.1.opened⟩
          · exact hu.2
        · exact fun _ hbehind => (Parser.Forward.build _).bind fun _ =>
            (hsign.forward hbehind).bind fun _ => hright.forward hbehind
      · rename_i heq
        have heq : chain? = some operator := Decidable.not_not.1 heq
        exact hlink t t' (heq ▸ h) rfl

end Chain

namespace Steps

variable {p p' : Parser ρ Unit} {g g' h h' : Parser ρ Bool}

theorem more (hp : σ.Respects need 1 p p') :
    σ.Steps need (p >>= fun _ => pure true) (p' >>= fun _ => pure true) where
  run s s' hs hreach := by
    apply (hp hs hreach).bind _ fun _ _ => .pure true
    intro _ t t' ht
    exact .ok ht
  forward h := (hp.forward h).bind fun _ => .pure true

theorem stop : σ.Steps need (pure false) (pure false) where
  run _ _ hs _ := .ok (After.refl hs)
  forward _ := .pure false

theorem sees_ite {q : Lookahead → Bool} [hq : Steady 0 q] [hfirm : Firm n q]
    (hg : σ.Steps n g g') (hh : σ.Steps need h h') :
    σ.Steps need (Parser.sees q >>= fun b => if b = true then g else h)
      (Parser.sees q >>= fun b => if b = true then g' else h') where
  run s s' hs hreach := by
    rw [Parser.sees_bind, Parser.sees_bind, hq.eq (σ.sees hs) (.inl (Nat.zero_le _))]
    split
    · exact hg.run hs (hfirm.le_reach (σ.sees hs).stop ‹_›)
    · exact hh.run hs hreach
  forward hb := .sees_ite (hg.forward hb) (hh.forward hb)

theorem sees_keyword {question question' : Lookahead → Option (Parser ρ Unit)}
    {f : Option (Parser ρ Unit) → Parser ρ Bool} (hnone : f none = pure false)
    (hsome : ∀ p, f (some p) = p >>= fun _ => pure true)
    (hwordless : ∀ a, a.keyword? 0 = none → question a = none)
    (hp : ∀ a a', a'.keyword? 0 = a.keyword? 0 →
      Option.Rel (fun p p' => σ.Respects 1 1 p p') (question a) (question' a')) :
    σ.Steps need (Parser.sees question >>= f) (Parser.sees question' >>= f) where
  run s s' hs hreach := by
    rw [Parser.sees_bind, Parser.sees_bind]
    have hrel := hp _ _ ((σ.sees hs).ask (·.keyword? 0) (.inl (Nat.zero_le _)))
    generalize hquestion : question _ = p?, question' _ = p?' at hrel ⊢
    cases hrel with
    | none =>
      rw [hnone]
      exact stop.run hs hreach
    | some hp =>
      rw [hsome, hsome]
      refine (more hp).run hs (Firm.le_reach (q := fun a => (a.keyword? 0).isSome)
        (σ.sees hs).stop (Option.isSome_iff_ne_none.2 fun hword => ?_))
      rw [hwordless _ hword] at hquestion
      contradiction
  forward hb := by
    apply Parser.Forward.answer_bind
    intro a
    have hrel := hp a a rfl
    generalize question a = p?, question' a = p?' at hrel ⊢
    cases hrel with
    | none =>
      rw [hnone]
      exact .pure false
    | some hp =>
      rw [hsome]
      exact (more hp).forward hb

theorem eatIf_ite {q : Lookahead → Bool} [hq : Steady 0 q] [hfirm : Firm 1 q]
    (hp : σ.Respects 0 0 p p') :
    σ.Steps need
      (Parser.eatIf q >>= fun b => if b = true then p >>= fun _ => pure true else pure false)
      (Parser.eatIf q >>= fun b => if b = true then p' >>= fun _ => pure true else pure false) := by
  have hforward : ∀ taken : Bool,
      σ.Forward (if taken = true then p' >>= fun _ => pure true else pure false) :=
    fun _ hb => .ite ((hp.forward hb).bind fun _ => .pure true) (.pure false)
  constructor
  · intro s s' hs _
    apply (Respects.eatIf_outcome hs).bind _ hforward
    intro taken t t' ht
    cases taken with
    | false =>
      obtain ⟨rfl, rfl⟩ := ht
      exact stop.run hs (Nat.zero_le _)
    | true =>
      apply (hp ht.rel (Nat.zero_le _)).bind _ fun _ _ => .pure true
      intro _ u u' hu
      exact .ok (ht.trans hu)
  · exact fun hb => (Parser.Forward.eatIf q).bind fun taken => hforward taken hb

end Steps

namespace Respects

variable {p p' : Parser ρ Unit}

theorem repeatWhile {step step' : Parser ρ Bool} (hstep : σ.Steps 0 step step') :
    σ.Respects need 0 (Parser.repeatWhile step) (Parser.repeatWhile step') where
  run s s' hs _ := by
    apply Outcome.discard
    apply Outcome.iterate (J := fun _ t t' => σ.After 0 s t t') _ _ hs (After.refl hs)
    · intro _ t t' ht
      apply (hstep.run ht.rel (Nat.zero_le _)).bind _ fun _ _ => .pure _
      intro more u u' hu
      apply Outcome.ok
      cases more with
      | false => exact ht.trans hu
      | true =>
        have := hu.took.length_le
        exact ⟨(ht.trans hu).weaken (Nat.zero_le _), by simp at this; omega⟩
    · exact fun _ hb => (hstep.forward hb).bind fun _ => .pure _
  forward hb := .repeatWhile (hstep.forward hb)

theorem whileSees {q : Lookahead → Bool} [Steady 0 q] [Firm n q] (hp : σ.Respects n 1 p p') :
    σ.Respects need 0 (Parser.whileSees q p) (Parser.whileSees q p') :=
  repeatWhile (Steps.sees_ite (Steps.more hp) Steps.stop)

theorem commaSeparatedFrom {first first' : Parser ρ Unit} (hfirst : σ.Respects need take first first')
    (hp : σ.Respects 0 0 p p') :
    σ.Respects need take (Parser.commaSeparatedFrom first p)
      (Parser.commaSeparatedFrom first' p') :=
  hfirst.seq (repeatWhile (Steps.eatIf_ite hp))

theorem commaSeparated (hp : σ.Respects 0 take p p') :
    σ.Respects need take (Parser.commaSeparated p) (Parser.commaSeparated p') :=
  commaSeparatedFrom (hp.lift)
    (hp.loose)

theorem infixChain [DecidableEq ρ] {m m' : Nat} (hm : σ.mark m m') (least : Nat)
    (operator? : Lookahead → Option (InfixOperator ρ)) [Steady 0 operator?]
    [Firm 1 fun a => (operator? a).isSome] {sign sign' : Parser ρ Unit}
    {operand operand' : Nat → Parser ρ Unit} (hsign : σ.Respects 1 1 sign sign')
    (hoperand : ∀ k, σ.Respects 0 0 (operand k) (operand' k)) :
    σ.Respects need 0 (Parser.infixChain m least operator? sign operand)
      (Parser.infixChain m' least operator? sign' operand') where
  run s s' hs _ := by
    unfold Parser.infixChain
    apply Outcome.bind
    · apply Outcome.iterate (J := Chain.Linked σ s) (Q := Chain.Linked σ s)
      · intro chain? t t' ht
        exact Chain.link operator? hm least hsign hoperand ht
      · exact fun chain? hb =>
          .link m' least operator? (hsign.forward hb) (fun k => (hoperand k).forward hb) chain?
      · exact hs
      · exact ⟨hs, Took.refl _, rfl⟩
    · intro chain? t t' ht
      apply (Chain.closeChain ht).mono
      intro _ u u' hu
      exact ⟨hu.1.rel, hu.1.opened, hu.1.took⟩
    · exact fun chain? _ => .closeChain chain?
  forward hb :=
    .infixChain m' least operator? (hsign.forward hb) fun k => (hoperand k).forward hb

/-- A chain whose operators are told by the kind of the token in front. -/
theorem infixChain_kind [DecidableEq ρ] {m m' : Nat} (hm : σ.mark m m') (least : Nat)
    {operator? : TokenKind → Option (InfixOperator ρ)} (heof : operator? .eof = none)
    (hsemicolon : operator? .semicolon = none)
    (hname : ∀ name, operator? (.identifier name.toUpper) = operator? (.identifier name))
    {sign sign' : Parser ρ Unit} {operand operand' : Nat → Parser ρ Unit}
    (hsign : σ.Respects 1 1 sign sign')
    (hoperand : ∀ k, σ.Respects 0 1 (operand k) (operand' k)) :
    σ.Respects need 0 (Parser.infixChain m least (operator? <| ·.kind 0) sign operand)
      (Parser.infixChain m' least (operator? <| ·.kind 0) sign' operand') := by
  have : Steady 0 fun a => operator? (a.kind 0) :=
    steady_kind 0 operator? (heof.trans hsemicolon.symm) hname
  have : Rejects 0 fun a => (operator? (a.kind 0)).isSome :=
    rejects_kind 0 (fun kind => (operator? kind).isSome) (by rw [heof]; rfl)
      (by rw [hsemicolon]; rfl)
  exact infixChain hm least _ hsign fun k => (hoperand k).loose

end Respects

def literalParts : Parser ρ Unit := do
  Parser.ifSees Lookahead.hasLiteralSign Parser.bump
  if ← Parser.eat .string then
    Parser.whileSees (·.isKind 0 .string) Parser.bump
  else
    Parser.bump

theorem literalParts.forward : (literalParts : Parser ρ Unit).Forward :=
  (Parser.Forward.ifSees _ .bump).bind fun _ =>
    (Parser.Forward.eatIf _).bind fun _ => .ite (.whileSees _ .bump) .bump

theorem Outcome.literal {s s' : ParserState ρ} (hs : σ.rel s s') (hreach : 1 ≤ reach s.rest)
    (hsign : (σ.small.ahead s.rest).hasLiteralSign → 2 ≤ reach s.rest) :
    σ.Outcome (fun _ t t' => σ.After 1 s t t') (literalParts σ.small s) (literalParts σ.large s') := by
  apply Respects.ifSees_bump _ hs hreach hsign
  apply Respects.eatIf_ite _ Respects.bump (Nat.le_refl 1)
  exact Respects.whileSees Respects.bump

end Simulation

end SqlScript
