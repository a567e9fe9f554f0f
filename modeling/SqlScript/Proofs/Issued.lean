import SqlScript.Parsing.Chain
import SqlScript.Proofs.Run

/-!
What parsers ask of the builder of a tree, one event after the other. A parser keeps the builder in
order if its events are permitted from every state in which what it builds on is still waiting, and
if it closes what it opens. Parsers that are made of such parsers are such parsers as well.
-/

namespace SqlScript

namespace Tree

/--
What can be asked of a builder. To ask for a checkpoint changes nothing.
-/
inductive Event (ρ : Type) where
  | start (rule : ρ)
  | startAt (checkpoint : Nat) (rule : ρ)
  | token (t : Token)
  | finish
  | checkpoint
  deriving DecidableEq

namespace Builder

variable {ρ : Type}

def apply (b : Builder ρ) : Event ρ → Builder ρ
  | .start rule => b.start rule
  | .startAt checkpoint rule => b.startAt checkpoint rule
  | .token t => b.token t
  | .finish => b.finish
  | .checkpoint => b

def after (b : Builder ρ) (es : List (Event ρ)) : Builder ρ :=
  es.foldl apply b

/--
A production may be opened at a checkpoint that does not lie behind what has been built.
-/
def Allows (b : Builder ρ) : Event ρ → Prop
  | .startAt checkpoint _ => checkpoint ≤ b.checkpoint
  | _ => True

def Permits (b : Builder ρ) : List (Event ρ) → Prop
  | [] => True
  | e :: es => b.Allows e ∧ (b.apply e).Permits es

instance (b : Builder ρ) (e : Event ρ) : Decidable (b.Allows e) :=
  match e with
  | .startAt checkpoint _ => inferInstanceAs (Decidable (checkpoint ≤ b.checkpoint))
  | .start _ | .token _ | .finish | .checkpoint => .isTrue True.intro

instance decidablePermits (b : Builder ρ) : (es : List (Event ρ)) → Decidable (b.Permits es)
  | [] => .isTrue True.intro
  | e :: es =>
    have := decidablePermits (b.apply e) es
    inferInstanceAs (Decidable (b.Allows e ∧ (b.apply e).Permits es))

theorem after_append (b : Builder ρ) (es fs : List (Event ρ)) :
    b.after (es ++ fs) = (b.after es).after fs :=
  List.foldl_append

theorem permits_append {b : Builder ρ} {es fs : List (Event ρ)} (hes : b.Permits es)
    (hfs : (b.after es).Permits fs) : b.Permits (es ++ fs) := by
  induction es generalizing b with
  | nil => exact hfs
  | cons e es ih => exact ⟨hes.1, ih hes.2 hfs⟩

theorem size_finish {b : Builder ρ} {rule : ρ} {k : Nat} {opened : List (ρ × Nat)}
    (h : b.opened = (rule, k) :: opened) :
    b.finish.pending.size = min k b.pending.size + 1 := by
  unfold finish
  rw [h]
  simp

theorem finish_of_nil {b : Builder ρ} (h : b.opened = []) : b.finish = b := by
  unfold finish
  rw [h]

end Builder

end Tree

open SqlScript.Tree (Builder Event)

namespace Parser

variable {ρ α β σ : Type} {c : Setting}

def endState : EStateM.Result Failure (ParserState ρ) α → ParserState ρ
  | .ok _ s => s
  | .error _ s => s

/--
Run from this state, the parser issues these events. Nothing but the steps of building issues any,
and a parser that has failed issues no more.
-/
inductive Issues (c : Setting) : {α : Type} → Parser ρ α → ParserState ρ → List (Event ρ) → Prop
  | pure {α : Type} (a : α) (s : ParserState ρ) : Issues c (Pure.pure a) s []
  | throw {α : Type} (f : Failure) (s : ParserState ρ) : Issues c (throw f : Parser ρ α) s []
  | setting (s : ParserState ρ) : Issues c (read : Parser ρ Setting) s []
  | ahead (s : ParserState ρ) : Issues c ahead s []
  | checkpoint (s : ParserState ρ) : Issues c checkpoint s [.checkpoint]
  | start (rule : ρ) (s : ParserState ρ) : Issues c (start rule) s [.start rule]
  | startAt (m : Nat) (rule : ρ) (s : ParserState ρ) : Issues c (startAt m rule) s [.startAt m rule]
  | finish (s : ParserState ρ) : Issues c finish s [.finish]
  | bump {s : ParserState ρ} {t : Token} {ts : List Token} (h : s.rest = t :: ts) :
      Issues c bump s [.token t]
  | stay {s : ParserState ρ} (h : s.rest = []) : Issues c bump s []
  | bind {α β : Type} {p : Parser ρ α} {f : α → Parser ρ β} {s t : ParserState ρ} {a : α}
      {es fs : List (Event ρ)} (hp : Issues c p s es) (h : p c s = .ok a t)
      (hf : Issues c (f a) t fs) : Issues c (p >>= f) s (es ++ fs)
  | fail {α β : Type} {p : Parser ρ α} {f : α → Parser ρ β} {s t : ParserState ρ} {e : Failure}
      {es : List (Event ρ)} (hp : Issues c p s es) (h : p c s = .error e t) :
      Issues c (p >>= f) s es

theorem Issues.builder_eq {p : Parser ρ α} {s : ParserState ρ} {es : List (Event ρ)}
    (h : Issues c p s es) : (endState (p c s)).builder = s.builder.after es := by
  induction h with
  | pure | throw | setting | ahead | checkpoint | start | startAt | finish => rfl
  | bump h | stay h =>
    rw [bump_eq]
    unfold endState ParserState.advance
    rw [h]
    rfl
  | bind _ h _ ihp ihf =>
    rw [h] at ihp
    rw [bind_ok h, ihf, Builder.after_append, ← ihp]
    rfl
  | fail _ h ihp =>
    rw [h] at ihp
    rw [bind_error h, ← ihp]
    rfl

/--
From states in `pre` the parser issues events that are permitted, whatever becomes of it; unless it
fails, it leads to states in `post`.
-/
def Steers (c : Setting) (pre : ParserState ρ → Prop) (p : Parser ρ α)
    (post : α → ParserState ρ → Prop) : Prop :=
  ∀ s, pre s →
    ∃ es, Issues c p s es ∧ s.builder.Permits es ∧ ∀ a t, p c s = .ok a t → post a t

namespace Steers

variable {pre pre' : ParserState ρ → Prop} {p : Parser ρ α} {post post' : α → ParserState ρ → Prop}

theorem imp (h : Steers c pre p post) (hpre : ∀ s, pre' s → pre s)
    (hpost : ∀ a t, post a t → post' a t) : Steers c pre' p post' := by
  intro s hs
  obtain ⟨es, hes, hpermits, ht⟩ := h s (hpre s hs)
  exact ⟨es, hes, hpermits, fun a t hat => hpost a t (ht a t hat)⟩

theorem of_ok (h : ∀ s, pre s → ∃ es a t, Issues c p s es ∧ s.builder.Permits es ∧
    p c s = .ok a t ∧ post a t) : Steers c pre p post := by
  intro s hs
  obtain ⟨es, a, t, hes, hpermits, hok, hpost⟩ := h s hs
  refine ⟨es, hes, hpermits, ?_⟩
  intro b u hu
  rw [hok] at hu
  cases hu
  exact hpost

theorem pure {a : α} (h : ∀ s, pre s → post a s) : Steers c pre (pure a) post :=
  of_ok fun s hs => ⟨[], a, s, .pure a s, True.intro, rfl, h s hs⟩

theorem bind {f : α → Parser ρ β} {post' : β → ParserState ρ → Prop} (hp : Steers c pre p post)
    (hf : ∀ a, Steers c (post a) (f a) post') : Steers c pre (p >>= f) post' := by
  intro s hs
  obtain ⟨es, hes, hpermits, hpost⟩ := hp s hs
  have hbuilder := hes.builder_eq
  cases h : p c s with
  | error e t =>
    refine ⟨es, hes.fail h, hpermits, ?_⟩
    intro b u hu
    rw [bind_error h] at hu
    contradiction
  | ok a t =>
    obtain ⟨fs, hfs, hmore, hpost'⟩ := hf a t (hpost a t h)
    rw [h] at hbuilder
    refine ⟨es ++ fs, hes.bind h hfs, Builder.permits_append hpermits (hbuilder ▸ hmore), ?_⟩
    intro b u hu
    rw [bind_ok h] at hu
    exact hpost' b u hu

theorem ahead : Steers c pre (Parser.ahead : Parser ρ Lookahead) fun _ => pre :=
  of_ok fun s hs => ⟨[], c.ahead s.rest, s, .ahead s, True.intro, rfl, hs⟩

theorem sees_bind {q : Lookahead → α} {f : α → Parser ρ β} {post' : β → ParserState ρ → Prop}
    (h : ∀ a, Steers c pre (f (q a)) post') : Steers c pre (sees q >>= f) post' :=
  ahead.bind h

theorem build {step : Builder ρ → Builder ρ} {e : Event ρ} {post : ParserState ρ → Prop}
    (he : ∀ s, Issues c (Parser.build step) s [e])
    (h : ∀ s, pre s → s.builder.Allows e ∧ post (s.build step)) :
    Steers c pre (Parser.build step) fun _ => post :=
  of_ok fun s hs =>
    ⟨[e], (), s.build step, he s, ⟨(h s hs).1, True.intro⟩, rfl, (h s hs).2⟩

theorem iterate {inv : σ → ParserState ρ → Prop} {step : σ → Parser ρ (Option σ)}
    (h : ∀ v, Steers c (inv v) (step v) fun next => inv (next.getD v)) (v : σ) :
    Steers c (inv v) (iterate step v) inv := by
  have hgo : ∀ rounds v, Steers c (inv v) (iterate.go step rounds v) inv := by
    intro rounds
    induction rounds with
    | nil => exact fun v => pure fun _ hs => hs
    | cons r rounds ih =>
      intro v
      apply (h v).bind
      intro next
      cases next with
      | some w => exact ih w
      | none => exact pure fun _ hs => hs
  exact ahead.bind fun _ => hgo _ v

end Steers

/--
These productions are open, and what was built in front of the mark is still waiting.
-/
structure Rests (opened : List (ρ × Nat)) (mark : Nat) (s : ParserState ρ) : Prop where
  opened : s.builder.opened = opened
  mark : mark ≤ s.builder.checkpoint

theorem Rests.finish {opened : List (ρ × Nat)} {rule : ρ} {k mark : Nat} {s : ParserState ρ}
    (h : Rests ((rule, k) :: opened) mark s) (hk : mark ≤ k) :
    Rests opened mark (s.build (·.finish)) where
  opened := by
    change s.builder.finish.opened = opened
    unfold Builder.finish
    rw [h.opened]
  mark := by
    have hmark : mark ≤ s.builder.pending.size := h.mark
    change mark ≤ s.builder.finish.pending.size
    rw [Builder.size_finish h.opened]
    omega

/--
A parser that keeps the builder in order: whatever is open, it issues events that are permitted if
what was built in front of the mark is waiting, and leaves that as it is.
-/
class Keeps (c : Setting) (mark : Nat) (p : Parser ρ α) : Prop where
  steers (opened : List (ρ × Nat)) : Steers c (Rests opened mark) p fun _ => Rests opened mark

namespace Keeps

variable {mark : Nat} {p : Parser ρ α} {body : Parser ρ Unit}

instance pure (a : α) : Keeps c mark (pure a : Parser ρ α) where
  steers _ := .pure fun _ hs => hs

instance throw (f : Failure) : Keeps c mark (throw f : Parser ρ α) where
  steers _ s _ := ⟨[], .throw f s, True.intro, nofun⟩

instance setting : Keeps c mark (read : Parser ρ Setting) where
  steers _ := .of_ok fun s hs => ⟨[], c, s, .setting s, True.intro, rfl, hs⟩

instance ahead : Keeps c mark (Parser.ahead : Parser ρ Lookahead) where
  steers _ := .ahead

instance bind {f : α → Parser ρ β} [hp : Keeps c mark p] [hf : ∀ a, Keeps c mark (f a)] :
    Keeps c mark (p >>= f) where
  steers opened := (hp.steers opened).bind fun a => (hf a).steers opened

-- Stated apart from `bind`, which would have instances searched for under a binder at each step.
instance seq {q : Parser ρ β} [Keeps c mark p] [Keeps c mark q] :
    Keeps c mark (p >>= fun _ => q) :=
  bind

instance map [Keeps c mark p] (g : α → β) : Keeps c mark (g <$> p) :=
  bind (p := p) (f := fun a => Pure.pure (g a))

instance discard [Keeps c mark p] : Keeps c mark (Functor.discard p) :=
  map _

instance ite {q : Prop} [Decidable q] {p' : Parser ρ α} [Keeps c mark p] [Keeps c mark p'] :
    Keeps c mark (if q then p else p') := by
  split
  · infer_instance
  · infer_instance

instance sees (question : Lookahead → α) : Keeps c mark (Parser.sees question : Parser ρ α) :=
  map _

theorem ahead_bind {f : Lookahead → Parser ρ β} (h : ∀ a, Keeps c mark (f a)) :
    Keeps c mark (Parser.ahead >>= f) :=
  bind

theorem answer_bind {question : Lookahead → α} {f : α → Parser ρ β}
    (h : ∀ a, Keeps c mark (f (question a))) : Keeps c mark (Parser.sees question >>= f) where
  steers opened := .sees_bind fun a => (h a).steers opened

instance sees_bind {question : Lookahead → α} {f : α → Parser ρ β}
    [h : ∀ a, Keeps c mark (f (question a))] : Keeps c mark (Parser.sees question >>= f) :=
  answer_bind h

instance checkpoint_bind {f : Nat → Parser ρ α} [h : ∀ k, Keeps c k (f k)] :
    Keeps c mark (Parser.checkpoint >>= f) where
  steers opened := by
    have hcheckpoint : Steers c (Rests opened mark) (Parser.checkpoint : Parser ρ Nat)
        fun k t => mark ≤ k ∧ Rests opened k t :=
      .of_ok fun s hs => ⟨[.checkpoint], s.builder.checkpoint, s, .checkpoint s,
        ⟨True.intro, True.intro⟩, rfl, hs.mark, hs.opened, Nat.le_refl _⟩
    apply hcheckpoint.bind
    rintro k t ⟨hk, ht⟩
    apply ((h k).steers opened).imp (fun _ hs => hs) _ t ht
    exact fun _ u hu => ⟨hu.opened, Nat.le_trans hk hu.mark⟩

instance bump : Keeps c mark (Parser.bump : Parser ρ Unit) where
  steers opened := by
    apply Steers.of_ok
    intro s hs
    cases h : s.rest with
    | nil =>
      refine ⟨[], (), s.advance, .stay h, True.intro, rfl, ?_⟩
      unfold ParserState.advance
      rw [h]
      exact hs
    | cons t ts =>
      refine ⟨[.token t], (), s.advance, .bump h, ⟨True.intro, True.intro⟩, rfl, ?_⟩
      unfold ParserState.advance
      rw [h]
      refine ⟨hs.opened, Nat.le_trans hs.mark ?_⟩
      simp [Builder.checkpoint]

theorem of_body (rule : ρ) (h : ∀ k, Keeps c k body) :
    Keeps c mark (Parser.production rule body) where
  steers opened s hs := by
    have hstart : Steers c (· = s) (start rule)
        fun _ => Rests ((rule, s.builder.checkpoint) :: opened) s.builder.checkpoint := by
      apply Steers.build (.start rule)
      rintro _ rfl
      exact ⟨True.intro, congrArg _ hs.opened, Nat.le_refl _⟩
    have hbody := (h s.builder.checkpoint).steers ((rule, s.builder.checkpoint) :: opened)
    have hfinish : Steers c (Rests ((rule, s.builder.checkpoint) :: opened) s.builder.checkpoint)
        finish fun _ => Rests opened mark := by
      apply Steers.build .finish
      intro t ht
      have hclosed := ht.finish (Nat.le_refl _)
      exact ⟨True.intro, hclosed.opened, Nat.le_trans hs.mark hclosed.mark⟩
    exact hstart.bind (fun _ => hbody.bind fun _ => hfinish) s rfl

instance production (rule : ρ) [h : ∀ k, Keeps c k body] :
    Keeps c mark (Parser.production rule body) :=
  of_body rule h

instance productionAt (rule : ρ) [h : Keeps c mark body] :
    Keeps c mark (Parser.productionAt mark rule body) where
  steers opened s hs := by
    have hstart : Steers c (· = s) (startAt mark rule)
        fun _ => Rests ((rule, max mark s.builder.floor) :: opened) mark := by
      apply Steers.build (.startAt mark rule)
      rintro _ rfl
      exact ⟨hs.mark, congrArg _ hs.opened, hs.mark⟩
    have hbody := h.steers ((rule, max mark s.builder.floor) :: opened)
    have hfinish : Steers c (Rests ((rule, max mark s.builder.floor) :: opened) mark)
        finish fun _ => Rests opened mark :=
      .build .finish fun t ht => ⟨True.intro, ht.finish (Nat.le_max_left _ _)⟩
    exact hstart.bind (fun _ => hbody.bind fun _ => hfinish) s rfl

instance iterate {step : σ → Parser ρ (Option σ)} [h : ∀ v, Keeps c mark (step v)] (v : σ) :
    Keeps c mark (Parser.iterate step v) where
  steers opened := Steers.iterate (fun v => (h v).steers opened) v

instance complain (complaint : Complaint) :
    Keeps c mark (Parser.complain complaint : Parser ρ α) := by
  unfold Parser.complain
  infer_instance

instance expected (what : String) : Keeps c mark (Parser.expected what : Parser ρ α) :=
  complain _

instance tooDeep : Keeps c mark (Parser.tooDeep : Parser ρ α) := by
  unfold Parser.tooDeep
  infer_instance

instance bumpN (n : Nat) : Keeps c mark (Parser.bumpN n : Parser ρ Unit) := by
  induction n with
  | zero => exact pure ()
  | succ n ih => exact bind

instance eatIf (question : Lookahead → Bool) :
    Keeps c mark (Parser.eatIf question : Parser ρ Bool) := by
  unfold Parser.eatIf
  infer_instance

instance eat (kind : TokenKind) : Keeps c mark (Parser.eat kind : Parser ρ Bool) :=
  eatIf _

instance eatKeyword (word : Keyword) : Keeps c mark (Parser.eatKeyword word : Parser ρ Bool) :=
  eatIf _

instance eatOneOf (words : List Keyword) : Keeps c mark (Parser.eatOneOf words : Parser ρ Bool) :=
  eatIf _

instance eatWord (word : String) : Keeps c mark (Parser.eatWord word : Parser ρ Bool) :=
  eatIf _

instance expectIf (question : Lookahead → Bool) (what : String) :
    Keeps c mark (Parser.expectIf question what : Parser ρ Unit) := by
  unfold Parser.expectIf
  infer_instance

instance expect (kind : TokenKind) : Keeps c mark (Parser.expect kind : Parser ρ Unit) :=
  expectIf _ _

instance expectKeyword (word : Keyword) :
    Keeps c mark (Parser.expectKeyword word : Parser ρ Unit) :=
  expectIf _ _

instance expectName : Keeps c mark (Parser.expectName : Parser ρ Unit) :=
  expectIf _ _

instance expectOneOf (words : List Keyword) (what : String) :
    Keeps c mark (Parser.expectOneOf words what : Parser ρ Unit) :=
  expectIf _ _

instance optionalKeyword (word : Keyword) :
    Keeps c mark (Parser.optionalKeyword word : Parser ρ Unit) :=
  discard

instance optionalOneOf (words : List Keyword) :
    Keeps c mark (Parser.optionalOneOf words : Parser ρ Unit) :=
  discard

theorem of_step {step : Parser ρ Bool} (h : Keeps c mark step) :
    Keeps c mark (Parser.repeatWhile step) := by
  unfold Parser.repeatWhile
  infer_instance

instance repeatWhile {step : Parser ρ Bool} [h : Keeps c mark step] :
    Keeps c mark (Parser.repeatWhile step) :=
  of_step h

instance whileSees (question : Lookahead → Bool) [Keeps c mark body] :
    Keeps c mark (Parser.whileSees question body) := by
  unfold Parser.whileSees
  infer_instance

instance commaSeparatedFrom {first item : Parser ρ Unit} [Keeps c mark first] [Keeps c mark item] :
    Keeps c mark (Parser.commaSeparatedFrom first item) := by
  unfold Parser.commaSeparatedFrom
  infer_instance

instance commaSeparated {item : Parser ρ Unit} [Keeps c mark item] :
    Keeps c mark (Parser.commaSeparated item) :=
  commaSeparatedFrom

instance ifSees (question : Lookahead → Bool) [Keeps c mark body] :
    Keeps c mark (Parser.ifSees question body) := by
  unfold Parser.ifSees
  infer_instance

instance ifKeyword (word : Keyword) [Keeps c mark body] :
    Keeps c mark (Parser.ifKeyword word body) :=
  ifSees _

instance afterKeyword (word : Keyword) [Keeps c mark body] :
    Keeps c mark (Parser.afterKeyword word body) := by
  unfold Parser.afterKeyword
  infer_instance

instance bumpBalancedUntil (stop : Token → Bool) :
    Keeps c mark (Parser.bumpBalancedUntil stop : Parser ρ Unit) := by
  have hmissing (missing : Option TokenKind) : Keeps c mark (match missing with
      | some closer => Parser.expected closer.describe
      | none => return () : Parser ρ Unit) := by
    split <;> infer_instance
  unfold Parser.bumpBalancedUntil
  infer_instance

instance bumpBalanced : Keeps c mark (Parser.bumpBalanced : Parser ρ Unit) :=
  bumpBalancedUntil _

instance bumpGroup : Keeps c mark (Parser.bumpGroup : Parser ρ Unit) := by
  have hgroup (closer : TokenKind) :
      Keeps c mark (Parser.bumpGroup.group closer : Parser ρ Unit) := by
    unfold Parser.bumpGroup.group
    infer_instance
  apply answer_bind
  intro a
  split <;> infer_instance

instance parenthesized [Keeps c mark body] : Keeps c mark (Parser.parenthesized body) := by
  unfold Parser.parenthesized
  infer_instance

instance bumpCase_round (depth : Nat) :
    Keeps c mark (Parser.bumpCase.round depth : Parser ρ (Option Nat)) := by
  unfold Parser.bumpCase.round
  infer_instance

instance bumpCase : Keeps c mark (Parser.bumpCase : Parser ρ Unit) := by
  unfold Parser.bumpCase
  infer_instance

/--
A chain that is being built is open, and adopts nothing from in front of the mark.
-/
def Chained (opened : List (ρ × Nat)) (mark : Nat) (chain? : Option (InfixOperator ρ))
    (s : ParserState ρ) : Prop :=
  match chain? with
  | none => Rests opened mark s
  | some operator => ∃ k, mark ≤ k ∧ Rests ((operator.rule, k) :: opened) mark s

theorem closeChain_steers (opened : List (ρ × Nat)) (chain? : Option (InfixOperator ρ)) :
    Steers c (Chained opened mark chain?) (closeChain chain?) fun _ => Rests opened mark := by
  cases chain? with
  | none => exact .pure fun _ hs => hs
  | some operator =>
    apply Steers.build .finish
    rintro s ⟨k, hk, hs⟩
    exact ⟨True.intro, hs.finish hk⟩

theorem chained_steers [h : Keeps c mark p] (opened : List (ρ × Nat)) (operator : InfixOperator ρ) :
    Steers c (Chained opened mark (some operator)) p
      fun _ => Chained opened mark (some operator) := by
  rintro s ⟨k, hk, hs⟩
  obtain ⟨es, hes, hpermits, hpost⟩ := h.steers ((operator.rule, k) :: opened) s hs
  exact ⟨es, hes, hpermits, fun a t ht => ⟨k, hk, hpost a t ht⟩⟩

theorem startAt_steers (opened : List (ρ × Nat)) (operator : InfixOperator ρ) :
    Steers c (Rests opened mark) (startAt mark operator.rule)
      fun _ => Chained opened mark (some operator) := by
  apply Steers.build (.startAt mark operator.rule)
  intro s hs
  exact ⟨hs.mark, max mark s.builder.floor, Nat.le_max_left _ _, congrArg _ hs.opened, hs.mark⟩

section

variable [DecidableEq ρ] (least : Nat) (operator? : Lookahead → Option (InfixOperator ρ))
  {sign : Parser ρ Unit} {operand : Nat → Parser ρ Unit} [Keeps c mark sign]
  [∀ k, Keeps c mark (operand k)]

theorem link_steers (opened : List (ρ × Nat)) (chain? : Option (InfixOperator ρ)) :
    Steers c (Chained opened mark chain?)
      (infixChain.link mark least operator? sign operand chain?)
      fun next => Chained opened mark (next.getD chain?) := by
  apply Steers.sees_bind
  intro a
  cases operator? a with
  | none => exact .pure fun _ hs => hs
  | some operator =>
    have hrest : Steers c (Chained opened mark (some operator)) (do
        sign
        operand (operator.strength + 1)
        return some (some operator) : Parser ρ (Option (Option (InfixOperator ρ))))
        fun next => Chained opened mark (next.getD chain?) := by
      apply (chained_steers opened operator).bind
      intro _
      apply (chained_steers opened operator).bind
      intro _
      exact .pure fun _ hs => hs
    dsimp only
    split
    · exact .pure fun _ hs => hs
    · split
      · apply (closeChain_steers opened chain?).bind
        intro _
        apply (startAt_steers opened operator).bind
        exact fun _ => hrest
      · rename_i hsame
        rw [Decidable.not_not.1 hsame] at hrest ⊢
        exact hrest

instance infixChain :
    Keeps c mark (Parser.infixChain mark least operator? sign operand) where
  steers opened := (Steers.iterate (link_steers least operator? opened) none).bind
    (closeChain_steers opened)

end

end Keeps

end Parser

end SqlScript
