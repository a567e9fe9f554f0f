import SqlScript.Proofs.Shape.Forms
import SqlScript.Proofs.Simulation.Loop

/-!
Loops form any number of what one round forms.
-/

namespace SqlScript

open SqlScript.Tree (Element)

/--
The first token is plain, and so is the one behind it if the first one belongs to a literal behind
it.
-/
def Lookahead.StartsLiteral (a : Lookahead) : Prop :=
  (a.kind 0).isPlain ∧ (a.hasLiteralSign → (a.kind 1).isPlain)

theorem Lookahead.startsLiteral_of_kind {a : Lookahead} {kind : TokenKind} (hk : a.kind 0 = kind)
    (hplain : kind.isPlain)
    (hsign : (kind.alike .minus || kind.alike .plus || kind.alike (.identifier "")) = false) :
    a.StartsLiteral := by
  subst hk
  refine ⟨hplain, fun h => ?_⟩
  exact absurd (hsign.symm.trans h) Bool.false_ne_true

namespace Parser

variable {ρ α σ : Type} {c : Setting}

section

variable {step : σ → Parser ρ (Option σ)} {J Q : σ → ParserState ρ → Prop}

/-- `J` holds whenever a step begins; `Q` holds behind the last one, whatever ends the loop. -/
theorem iterate_go_ok
    (hstep : ∀ v s next t, J v s → step v c s = .ok next t →
      match next with
      | some w => J w t
      | none => Q v t)
    (hout : ∀ v s, J v s → Q v s) (rounds : List Token) {v w : σ} {s t : ParserState ρ}
    (hinv : J v s) (hok : iterate.go step rounds v c s = .ok w t) : Q w t := by
  induction rounds generalizing v s with
  | nil =>
    cases hok
    exact hout _ _ hinv
  | cons r rounds ih =>
    unfold iterate.go at hok
    obtain ⟨next, u, hu, hok⟩ := bind_eq_ok hok
    have hnext := hstep v s next u hinv hu
    cases next with
    | none =>
      cases hok
      exact hnext
    | some w' => exact ih hnext hok

theorem iterate_ok
    (hstep : ∀ v s next t, J v s → step v c s = .ok next t →
      match next with
      | some w => J w t
      | none => Q v t)
    (hout : ∀ v s, J v s → Q v s) {v w : σ} {s t : ParserState ρ}
    (hinv : J v s) (hok : iterate step v c s = .ok w t) : Q w t := by
  unfold iterate at hok
  rw [Parser.ahead_bind] at hok
  exact iterate_go_ok hstep hout _ hinv hok

/-- If every step that goes on takes a token, the loop ends with a step that does not go on. -/
theorem iterate_ends
    (hstep : ∀ v s next t, J v s → step v c s = .ok next t →
      match next with
      | some w => J w t ∧ t.rest.length < s.rest.length
      | none => Q v t)
    {v w : σ} {s t : ParserState ρ} (hinv : J v s) (hok : iterate step v c s = .ok w t) :
    Q w t := by
  have hgo : ∀ (rounds : List Token) (v : σ) (s : ParserState ρ), J v s →
      s.rest.length < rounds.length → iterate.go step rounds v c s = .ok w t → Q w t := by
    intro rounds
    induction rounds with
    | nil =>
      intro v s _ hlen
      simp at hlen
    | cons r rounds ih =>
      intro v s hinv hlen hok
      unfold iterate.go at hok
      obtain ⟨next, u, hu, hok⟩ := bind_eq_ok hok
      have hnext := hstep v s next u hinv hu
      cases next with
      | none =>
        cases hok
        exact hnext
      | some w' =>
        rw [List.length_cons] at hlen
        exact ih w' u hnext.1 (by omega) hok
  unfold iterate at hok
  rw [Parser.ahead_bind] at hok
  exact hgo _ v s hinv (Nat.lt_succ_self _) hok

end

variable [Grammar ρ] {pre inv : Lookahead → Prop} {h : Nat} {f g : Shape ρ}

/--
One round of a loop: it forms `f` and asks for more, or it does nothing. The invariant holds of what
is seen whenever a round begins.
-/
def Rounds (c : Setting) (inv : Lookahead → Prop) (h : Nat) (f : Shape ρ) (p : Parser ρ Bool) :
    Prop :=
  ∀ ⦃s t : ParserState ρ⦄ ⦃more : Bool⦄, c.stop.kind = .eof → s.builder.Sound →
    inv (c.ahead s.rest) → p c s = .ok more t → ∃ es, Grows s t es ∧
      Made h (if more then f else .nothing) es ∧ (more = true → inv (c.ahead t.rest))

namespace Rounds

variable {p : Parser ρ Unit} {q q' : Parser ρ Bool}

theorem stop : Rounds c inv h f (pure false) := by
  rintro s _ _ _ _ _ ⟨⟩
  exact ⟨[], .refl s, .nil, nofun⟩

theorem eatIf_ite {question : Lookahead → Bool} {token : Token → Bool}
    [hq : Announces question token] (hp : Forms c (fun _ => True) h f p) :
    Rounds c (fun _ => True) h (Shape.token token ++ f)
      (eatIf question >>= fun b => if b = true then p >>= fun _ => pure true else pure false) := by
  intro s t more hstop hs _ hok
  obtain ⟨taken, u, hu, hok⟩ := bind_eq_ok hok
  rw [eatIf_eq] at hu
  split at hu
  · rename_i hyes
    cases hu
    obtain ⟨x, xs, hrest, hx⟩ := hq.cons hstop hyes
    have hgrows : Grows s s.advance [.token x] := .advance hrest
    obtain ⟨_, v, hv, hok⟩ := bind_eq_ok hok
    obtain ⟨es, hes, hf⟩ := hp hstop (hgrows.sound hs) trivial hv
    cases hok
    exact ⟨_, hgrows.trans hes, (Made.token hx).append hf, fun _ => trivial⟩
  · cases hu
    exact (stop : Rounds c (fun _ => True) h _ _) hstop hs trivial hok

theorem sees_ite_of {question : Lookahead → Bool}
    (hp : Forms c (fun a => inv a ∧ question a = true) h f p)
    (hinv : Leads c (fun a => inv a ∧ question a = true) inv p) (hq : Rounds c inv h f q) :
    Rounds c inv h f
      (sees question >>= fun b => if b = true then p >>= fun _ => pure true else q) := by
  intro s t more hstop hs hbegin hok
  rw [sees_bind] at hok
  split at hok
  · rename_i hyes
    obtain ⟨_, u, hu, hok⟩ := bind_eq_ok hok
    cases hok
    obtain ⟨es, hes, hmade⟩ := hp hstop hs ⟨hbegin, hyes⟩ hu
    exact ⟨es, hes, hmade, fun _ => hinv ⟨hbegin, hyes⟩ hu⟩
  · exact hq hstop hs hbegin hok

theorem sees_ite {question : Lookahead → Bool} (hp : Forms c (question · = true) h f p)
    (hq : Rounds c (fun _ => True) h f q) :
    Rounds c (fun _ => True) h f
      (sees question >>= fun b => if b = true then p >>= fun _ => pure true else q) :=
  sees_ite_of (hp.weaken fun _ ha => ha.2) (fun _ _ _ _ _ => trivial) hq

theorem sees_some {question : Lookahead → Option (Parser ρ Unit)}
    {k : Option (Parser ρ Unit) → Parser ρ Bool} (hnone : k none = pure false)
    (hsome : ∀ p, k (some p) = p >>= fun _ => pure true)
    (hp : ∀ a p, question a = some p → Forms c (· = a) h f p) :
    Rounds c (fun _ => True) h f (sees question >>= k) := by
  intro s t more hstop hs _ hok
  rw [sees_bind] at hok
  cases hp? : question (c.ahead s.rest) with
  | none =>
    rw [hp?, hnone] at hok
    exact (stop : Rounds c (fun _ => True) h _ _) hstop hs trivial hok
  | some p =>
    rw [hp?, hsome] at hok
    obtain ⟨_, u, hu, hok⟩ := bind_eq_ok hok
    cases hok
    obtain ⟨es, hes, hmade⟩ := hp _ p hp? hstop hs rfl hu
    exact ⟨es, hes, hmade, fun _ => trivial⟩

omit [Grammar ρ] in
theorem more_of_sees_some {question : Lookahead → Option (Parser ρ Unit)}
    {k : Option (Parser ρ Unit) → Parser ρ Bool} (hsome : ∀ p, k (some p) = p >>= fun _ => pure true)
    {s t : ParserState ρ} {more : Bool} (hq : (question (c.ahead s.rest)).isSome)
    (hok : (sees question >>= k) c s = .ok more t) : more = true := by
  obtain ⟨p, hp⟩ := Option.isSome_iff_exists.1 hq
  rw [sees_bind, hp, hsome] at hok
  obtain ⟨_, u, -, hok⟩ := bind_eq_ok hok
  cases hok
  rfl

end Rounds

namespace Forms

theorem go_made {step : Parser ρ Bool} (hstep : Rounds c inv h f step) {rounds : List Token}
    {s t : ParserState ρ} (hstop : c.stop.kind = .eof) (hs : s.builder.Sound)
    (hbegin : inv (c.ahead s.rest))
    (hok : iterate.go (fun _ : Unit => do return if ← step then some () else none) rounds () c s =
      .ok () t) :
    ∃ es, Grows s t es ∧ Made h (.many f) es := by
  apply iterate_go_ok
    (J := fun _ u => inv (c.ahead u.rest) ∧ ∃ es, Grows s u es ∧ Made h (.many f) es)
    (Q := fun _ u => ∃ es, Grows s u es ∧ Made h (.many f) es) _ _ _ _ hok
  · rintro _ u next v ⟨hbegin, es, hes, hmade⟩ hv
    obtain ⟨more, w, hw, hv⟩ := bind_eq_ok hv
    obtain ⟨fs, hfs, hround, hinv⟩ := hstep hstop (hes.sound hs) hbegin hw
    cases more with
    | true =>
      cases hv
      exact ⟨hinv rfl, es ++ fs, hes.trans hfs, hmade.many_append hround⟩
    | false =>
      cases hv
      have hnil : fs = [] := hround.fits
      subst hnil
      exact ⟨es, by simpa using hes.trans hfs, hmade⟩
  · exact fun _ _ hJ => hJ.2
  · exact ⟨hbegin, [], .refl s, .many_nil f, nofun, nofun⟩

theorem repeatWhile_of {step : Parser ρ Bool} (hstep : Rounds c inv h f step) :
    Forms c inv h (.many f) (repeatWhile step) := by
  apply discard
  intro s t _ hstop hs hbegin hok
  unfold iterate at hok
  rw [Parser.ahead_bind] at hok
  exact go_made hstep hstop hs hbegin hok

theorem repeatWhile {step : Parser ρ Bool} (hstep : Rounds c (fun _ => True) h f step) :
    Forms c pre h (.many f) (Parser.repeatWhile step) :=
  (repeatWhile_of hstep).anywhere

theorem repeatWhile_of_first {step : Parser ρ Bool} (hstep : Rounds c (fun _ => True) h f step)
    (hfirst : ∀ ⦃s t more⦄, pre (c.ahead s.rest) → step c s = .ok more t → more = true) :
    Forms c pre h (f ++ .many f) (Parser.repeatWhile step) := by
  apply discard
  intro s t _ hstop hs hpre hok
  unfold iterate at hok
  rw [Parser.ahead_bind] at hok
  unfold iterate.go at hok
  obtain ⟨next, u, hu, hok⟩ := bind_eq_ok hok
  obtain ⟨more, v, hv, hu⟩ := bind_eq_ok hu
  obtain rfl := hfirst hpre hv
  cases hu
  obtain ⟨es, hes, hround, -⟩ := hstep hstop hs trivial hv
  obtain ⟨fs, hfs, hrest⟩ := go_made hstep hstop (hes.sound hs) trivial hok
  exact ⟨es ++ fs, hes.trans hfs, Made.append (f := f) hround hrest⟩

theorem whileSees {question : Lookahead → Bool} {p : Parser ρ Unit}
    (hp : Forms c (question · = true) h f p) : Forms c pre h (.many f) (whileSees question p) :=
  repeatWhile (.sees_ite hp .stop)

theorem tokens_while_of {question : Lookahead → Bool} {p : Parser ρ Unit}
    (hp : Forms c (fun a => inv a ∧ question a = true) h .tokens p)
    (hinv : Leads c (fun a => inv a ∧ question a = true) inv p) :
    Forms c inv h .tokens (Parser.whileSees question p) :=
  (repeatWhile_of (.sees_ite_of hp hinv .stop)).sub .many_tokens (Nat.le_refl h)

theorem tokens_while {question : Lookahead → Bool} {p : Parser ρ Unit}
    (hp : Forms c (question · = true) h .tokens p) :
    Forms c pre h .tokens (Parser.whileSees question p) :=
  (whileSees hp).sub .many_tokens (Nat.le_refl h)

theorem commaSeparatedFrom {first item : Parser ρ Unit} (hfirst : Forms c pre h f first)
    (hitem : Forms c (fun _ => True) h g item) :
    Forms c pre h (.commasFrom f g) (commaSeparatedFrom first item) := by
  unfold Parser.commaSeparatedFrom
  exact hfirst.seq (repeatWhile (.eatIf_ite hitem))

theorem commaSeparated {item : Parser ρ Unit} (hitem : Forms c (fun _ => True) h f item) :
    Forms c pre h (.commas f) (commaSeparated item) := by
  unfold Parser.commaSeparated
  exact commaSeparatedFrom (hitem.weaken fun _ _ => trivial) hitem

theorem literal :
    Forms c Lookahead.StartsLiteral h (.tokens : Shape ρ) Simulation.literalParts := by
  have hsign : Leads c Lookahead.StartsLiteral (fun a => (a.kind 0).isPlain)
      (Parser.ifSees Lookahead.hasLiteralSign Parser.bump : Parser ρ Unit) := by
    apply Leads.ifSees
    · apply Leads.bump
      intro a ha
      rw [Lookahead.kind_skip]
      exact ha.1.2 ha.2
    · exact fun _ ha _ => ha.1
  apply tokens_seq_of (ifSees_tokens (bump_tokens fun _ ha => ha.1.1)) hsign
  apply eatIf_ite_tokens
  · exact tokens_while (bump_tokens fun _ ha => Lookahead.isPlain_of_isKind ha)
  · exact bump_tokens fun _ ha => ha

/-- A sign in front of a number belongs to it, and any other one stands in front of an operand. -/
theorem literal_or_prefixed {a : Lookahead} {f : Shape ρ} {literal prefixed : Parser ρ Unit}
    (hliteral : a.StartsLiteral → Forms c pre h f literal) (hprefixed : Forms c pre h f prefixed)
    (ha : (a.kind 0).isPlain) :
    Forms c pre h f
      (if (a.isKind 1 .integer || a.isKind 1 .float) = true then literal else prefixed) := by
  split
  · rename_i hnumber
    exact hliteral ⟨ha, fun _ => ((Bool.or_eq_true _ _).mp hnumber).elim
      Lookahead.isPlain_of_isKind Lookahead.isPlain_of_isKind⟩
  · exact hprefixed

theorem bumpCase : Forms c pre h (.tokens : Shape ρ) bumpCase := by
  have hround : ∀ depth, Forms c (fun _ => True) h (.tokens : Shape ρ) (bumpCase.round depth) := by
    intro depth
    have hnothing : ∀ next : Option Nat, Forms c (fun _ => True) h (.tokens : Shape ρ)
        (Pure.pure next) :=
      fun next => (pure next).sub (fun _ hes => by cases hes; exact .tokens_nil) (Nat.le_refl h)
    unfold bumpCase.round
    apply tokens_seq (bumpBalancedUntil _)
    intro _
    apply tokens_seq eatIf_tokens
    intro taken
    cases taken with
    | true => exact hnothing _
    | false =>
      apply tokens_seq eatIf_tokens
      intro taken
      cases taken with
      | true => exact hnothing _
      | false => exact expected _
  unfold Parser.bumpCase
  apply tokens_seq
  · exact (expectKeyword _).sub (.token_tokens _) (Nat.le_refl h)
  intro _
  apply discard
  intro s t _ hstop hs _ hok
  apply iterate_ok (J := fun _ u => ∃ es, Grows s u es ∧ Made h .tokens es)
    (Q := fun _ u => ∃ es, Grows s u es ∧ Made h .tokens es) _ _ _ hok
  · rintro depth u next v ⟨es, hes, hmade⟩ hv
    obtain ⟨fs, hfs, hround⟩ := hround depth hstop (hes.sound hs) trivial hv
    have hall : Made h .tokens (es ++ fs) :=
      (hmade.append hround).sub
        (fun _ ⟨_, _, heq, hxs, hys⟩ => heq ▸ hxs.tokens_append hys) (Nat.le_refl h)
    cases next with
    | some depth => exact ⟨_, hes.trans hfs, hall⟩
    | none => exact ⟨_, hes.trans hfs, hall⟩
  · exact fun _ _ hinv => hinv
  · exact ⟨[], .refl s, .tokens_nil, nofun, nofun⟩

end Forms

end Parser

end SqlScript
