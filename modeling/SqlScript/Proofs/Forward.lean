import SqlScript.Parsing.Chain
import SqlScript.Proofs.Run

/-!
Parsers go forward: a run leaves the end of the tokens it started with, and never gives one back.
-/

namespace SqlScript.Parser

variable {ρ α β σ : Type}

/--
What a run leaves is the end of what it started with.
-/
def Forward (p : Parser ρ α) : Prop :=
  ∀ ⦃c s t⦄ ⦃a : α⦄, p c s = .ok a t → t.rest <:+ s.rest

namespace Forward

theorem pure (a : α) : Forward (pure a : Parser ρ α) := by
  intro c s t _ h
  cases h
  exact List.suffix_refl _

theorem bind {p : Parser ρ α} {f : α → Parser ρ β} (hp : Forward p) (hf : ∀ a, Forward (f a)) :
    Forward (p >>= f) := by
  intro c s t b h
  obtain ⟨a, u, hu, ht⟩ := bind_eq_ok h
  exact (hf a ht).trans (hp hu)

theorem map {p : Parser ρ α} (hp : Forward p) (g : α → β) : Forward (g <$> p) :=
  hp.bind fun a => pure (g a)

theorem discard {p : Parser ρ α} (hp : Forward p) : Forward (Functor.discard p) :=
  hp.map _

theorem ite {q : Prop} [Decidable q] {p p' : Parser ρ α} (hp : Forward p) (hp' : Forward p') :
    Forward (if q then p else p') := by
  split
  · exact hp
  · exact hp'

theorem complain (complaint : Complaint) : Forward (Parser.complain complaint : Parser ρ α) := by
  intro c s t _ h
  rw [complain_eq] at h
  contradiction

theorem expected (what : String) : Forward (Parser.expected what : Parser ρ α) :=
  complain _

theorem tooDeep : Forward (Parser.tooDeep : Parser ρ α) := by
  intro c s t _ h
  rw [tooDeep_eq, complain_eq] at h
  contradiction

theorem ahead_bind {f : Lookahead → Parser ρ β} (hf : ∀ a, Forward (f a)) :
    Forward (Parser.ahead >>= f) :=
  fun _ _ _ _ h => hf _ h

theorem sees_bind {question : Lookahead → α} {f : α → Parser ρ β} (hf : ∀ a, Forward (f a)) :
    Forward (Parser.sees question >>= f) :=
  fun _ _ _ _ h => hf _ h

theorem answer_bind {question : Lookahead → α} {f : α → Parser ρ β}
    (hf : ∀ a, Forward (f (question a))) : Forward (Parser.sees question >>= f) :=
  fun _ _ _ _ h => hf _ h

theorem checkpoint_bind {f : Nat → Parser ρ β} (hf : ∀ m, Forward (f m)) :
    Forward (Parser.checkpoint >>= f) :=
  fun _ _ _ _ h => hf _ h

theorem build (step : Tree.Builder ρ → Tree.Builder ρ) : Forward (Parser.build step) := by
  intro c s t _ h
  rw [build_eq] at h
  cases h
  exact List.suffix_refl _

theorem bump : Forward (Parser.bump : Parser ρ Unit) := by
  intro c s t _ h
  rw [bump_eq] at h
  cases h
  rw [ParserState.rest_advance]
  exact List.tail_suffix _

theorem bumpN (n : Nat) : Forward (Parser.bumpN n : Parser ρ Unit) := by
  induction n with
  | zero => exact pure ()
  | succ n ih => exact bump.bind fun _ => ih

theorem sees_ite {question : Lookahead → Bool} {p p' : Parser ρ α} (hp : Forward p)
    (hp' : Forward p') :
    Forward (Parser.sees question >>= fun b => if b = true then p else p') :=
  sees_bind fun _ => ite hp hp'

theorem eatIf (question : Lookahead → Bool) : Forward (Parser.eatIf question : Parser ρ Bool) :=
  sees_ite (bump.bind fun _ => pure true) (pure false)

theorem expectIf (question : Lookahead → Bool) (what : String) :
    Forward (Parser.expectIf question what : Parser ρ Unit) :=
  (eatIf question).bind fun _ => ite (pure ()) (expected what)

section

variable {p : Parser ρ Unit}

theorem production (rule : ρ) (hp : Forward p) : Forward (Parser.production rule p) :=
  (build _).bind fun _ => hp.bind fun _ => build _

theorem productionAt (m : Nat) (rule : ρ) (hp : Forward p) :
    Forward (Parser.productionAt m rule p) :=
  (build _).bind fun _ => hp.bind fun _ => build _

theorem ifSees (question : Lookahead → Bool) (hp : Forward p) :
    Forward (Parser.ifSees question p) :=
  sees_ite hp (pure ())

end

theorem optionalKeyword (word : Keyword) : Forward (Parser.optionalKeyword word : Parser ρ Unit) :=
  (eatIf _).discard

theorem iterate_go {step : σ → Parser ρ (Option σ)} (hstep : ∀ v, Forward (step v))
    (rounds : List Token) (v : σ) : Forward (Parser.iterate.go step rounds v) := by
  induction rounds generalizing v with
  | nil => exact pure v
  | cons r rounds ih =>
    unfold Parser.iterate.go
    apply (hstep v).bind
    intro next
    cases next with
    | some w => exact ih w
    | none => exact pure v

theorem iterate {step : σ → Parser ρ (Option σ)} (hstep : ∀ v, Forward (step v)) (v : σ) :
    Forward (Parser.iterate step v) :=
  ahead_bind fun _ => iterate_go hstep _ v

theorem repeatWhile {step : Parser ρ Bool} (hstep : Forward step) :
    Forward (Parser.repeatWhile step) := by
  apply discard
  apply iterate
  intro _
  exact hstep.bind fun _ => pure _

theorem whileSees (question : Lookahead → Bool) {p : Parser ρ Unit} (hp : Forward p) :
    Forward (Parser.whileSees question p) :=
  repeatWhile (sees_ite (hp.bind fun _ => pure true) (pure false))

section

variable [DecidableEq ρ] (m least : Nat) (operator? : Lookahead → Option (InfixOperator ρ))
  {sign : Parser ρ Unit} {operand : Nat → Parser ρ Unit}

omit [DecidableEq ρ] in
theorem closeChain (chain? : Option (InfixOperator ρ)) :
    Forward (Parser.closeChain chain? : Parser ρ Unit) :=
  ite (build _) (pure ())

theorem link (hsign : Forward sign) (hoperand : ∀ k, Forward (operand k))
    (chain? : Option (InfixOperator ρ)) :
    Forward (Parser.infixChain.link m least operator? sign operand chain?) := by
  apply sees_bind
  intro operator
  cases operator with
  | none => exact pure none
  | some operator =>
    have hlink : Forward (do
        sign
        operand (operator.strength + 1)
        return some (some operator) : Parser ρ (Option (Option (InfixOperator ρ)))) :=
      hsign.bind fun _ => (hoperand _).bind fun _ => pure _
    apply ite (pure none)
    apply ite _ hlink
    exact (closeChain chain?).bind fun _ => (build _).bind fun _ => hlink

theorem infixChain (hsign : Forward sign) (hoperand : ∀ k, Forward (operand k)) :
    Forward (Parser.infixChain m least operator? sign operand) :=
  (iterate (link m least operator? hsign hoperand) none).bind closeChain

end

theorem bumpBalancedUntil (stop : Token → Bool) :
    Forward (Parser.bumpBalancedUntil stop : Parser ρ Unit) := by
  apply ahead_bind
  intro a
  apply (bumpN _).bind
  intro _
  cases (Lookahead.balancedRun stop [] 0 a.rest).2 with
  | some closer => exact expected _
  | none => exact pure ()

theorem bumpGroup : Forward (Parser.bumpGroup : Parser ρ Unit) := by
  have hgroup : ∀ closer, Forward (Parser.bumpGroup.group closer : Parser ρ Unit) := fun closer =>
    bump.bind fun _ => (bumpBalancedUntil _).bind fun _ => expectIf _ _
  apply sees_bind
  intro kind
  split
  · exact hgroup _
  · exact hgroup _
  · exact expected _

theorem bumpCase_round (depth : Nat) :
    Forward (Parser.bumpCase.round depth : Parser ρ (Option Nat)) := by
  apply (bumpBalancedUntil _).bind
  intro _
  apply (eatIf _).bind
  intro _
  apply ite (pure _)
  apply (eatIf _).bind
  intro _
  exact ite (pure _) (expected _)

theorem bumpCase : Forward (Parser.bumpCase : Parser ρ Unit) :=
  (expectIf _ _).bind fun _ => (iterate bumpCase_round 1).discard

end Forward

end SqlScript.Parser
