import SqlScript.Proofs.Simulation.Loop

/-!
Scripts of two runs that see texts of the same length. Unlike the parts of a statement, the list of
statements takes the semicolons between them.
-/

namespace SqlScript

/--
The productions of a script: the whole, the list of its statements, and a statement that is empty.
-/
structure ScriptForm (ρ : Type) where
  root : ρ
  list : ρ
  empty : ρ

namespace ScriptForm

variable {ρ : Type} (form : ScriptForm ρ) (statement : Parser ρ Unit)

def separated : Parser ρ Unit := do
  statement
  if !(← Parser.eat .semicolon) then
    Parser.ifSees (!·.atEnd) (Parser.expected "';' or end of input")

def entry : Parser ρ Unit := do
  if ← Parser.sees (·.isKind 0 .semicolon) then
    Parser.production form.empty Parser.bump
  else
    separated statement

def entries : Parser ρ Unit :=
  Parser.whileSees (!·.atEnd) (form.entry statement)

def script : Parser ρ Unit :=
  Parser.production form.root <|
    Parser.ifSees (!·.atEnd) (Parser.production form.list (form.entries statement))

end ScriptForm

theorem Sees.kind_of_length {a a' : Lookahead} (h : Sees a a')
    (hlen : a.rest.length = a'.rest.length) (n : Nat) :
    (a'.kind n).folded = (a.kind n).folded := by
  unfold Lookahead.kind
  by_cases hlt : n < a.rest.length
  · have heq := h.rest.kind_eq hlt
    rw [Lookahead.token_of_lt hlt, Lookahead.token_of_lt (hlen ▸ hlt)]
    simpa [hlt, hlen ▸ hlt] using heq
  · rw [Lookahead.token_of_le (Nat.le_of_not_lt hlt),
      Lookahead.token_of_le (hlen ▸ Nat.le_of_not_lt hlt), h.stop, h.stop']

namespace Simulation

variable {ρ : Type} {σ : Simulation ρ}

/--
The states after two runs that started in related states, whatever the tokens are that have been
taken.
-/
structure Kept (σ : Simulation ρ) (take : Nat) (s t t' : ParserState ρ) : Prop where
  rel : σ.rel t t'
  opened : t.builder.opened = s.builder.opened
  length_le : t.rest.length + take ≤ s.rest.length

namespace Kept

variable {k l : Nat} {s s' t t' u u' : ParserState ρ}

theorem refl (hs : σ.rel s s') : σ.Kept 0 s s s' :=
  ⟨hs, rfl, Nat.le_refl _⟩

theorem trans (h : σ.Kept k s t t') (h' : σ.Kept l t u u') : σ.Kept (k + l) s u u' where
  rel := h'.rel
  opened := h'.opened.trans h.opened
  length_le := by
    have := h.length_le
    have := h'.length_le
    omega

theorem weaken (h : σ.Kept k s t t') (hl : l ≤ k) : σ.Kept l s t t' where
  rel := h.rel
  opened := h.opened
  length_le := Nat.le_trans (Nat.add_le_add_left hl _) h.length_le

theorem of_after (h : σ.After k s t t') : σ.Kept k s t t' :=
  ⟨h.rel, h.opened, h.took.length_le⟩

end Kept

namespace Outcome

variable {take : Nat} {s s' : ParserState ρ}

theorem production_kept {p p' : Parser ρ Unit} (rule : ρ) (hs : σ.rel s s')
    (h : ∀ t t', σ.rel t t' → t.rest = s.rest →
      σ.Outcome (fun _ u u' => σ.Kept take t u u') (p σ.small t) (p' σ.large t')) :
    σ.Outcome (fun _ u u' => σ.Kept take s u u') (Parser.production rule p σ.small s)
      (Parser.production rule p' σ.large s') := by
  change σ.Outcome _ ((p >>= fun _ => Parser.finish) σ.small (s.build (·.start rule)))
    ((p' >>= fun _ => Parser.finish) σ.large (s'.build (·.start rule)))
  apply (h _ _ (σ.start rule hs) rfl).bind _ fun _ _ => .build _
  intro _ u u' hu
  have hopened : u.builder.opened = (rule, s.builder.pending.size) :: s.builder.opened := hu.opened
  apply Outcome.ok
  refine ⟨σ.finish hu.rel (by simp [hopened]), ?_, hu.length_le⟩
  simp [Tree.Builder.finish, hopened]

theorem bump_kept (hs : σ.rel s s') (hrest : s.rest ≠ []) :
    σ.Outcome (fun _ t t' => σ.Kept 1 s t t') (Parser.bump σ.small s)
      (Parser.bump σ.large s') := by
  rw [Parser.bump_eq, Parser.bump_eq]
  apply Outcome.ok
  obtain ⟨t, ts, hcons⟩ := List.exists_cons_of_ne_nil hrest
  have hadvance : s.advance = { s with rest := ts, builder := s.builder.token t } := by
    unfold ParserState.advance
    rw [hcons]
  refine ⟨σ.advance hs hrest, by rw [hadvance]; rfl, ?_⟩
  rw [hadvance, hcons]
  exact Nat.le_refl _

end Outcome

structure Exact (σ : Simulation ρ) : Prop where
  length_eq ⦃s s' : ParserState ρ⦄ : σ.rel s s' → s.rest.length = s'.rest.length
  behind : σ.behind = none

namespace Exact

variable (h : σ.Exact) {s s' : ParserState ρ}

include h

theorem forward {α : Type} {p : Parser ρ α} : σ.Forward p :=
  forward_of_none h.behind

theorem isKind_eq (hs : σ.rel s s') (n : Nat) (k : TokenKind) :
    (σ.large.ahead s'.rest).isKind n k = (σ.small.ahead s.rest).isKind n k := by
  unfold Lookahead.isKind
  exact TokenKind.alike_congr ((σ.sees hs).kind_of_length (h.length_eq hs) n) k

theorem atEnd_eq (hs : σ.rel s s') :
    (σ.large.ahead s'.rest).atEnd = (σ.small.ahead s.rest).atEnd :=
  h.isKind_eq hs 0 .eof

omit h in
theorem rest_ne_nil (hs : σ.rel s s') (h : (σ.small.ahead s.rest).isKind 0 .semicolon) :
    s.rest ≠ [] := by
  intro hrest
  have hstop := (σ.sees hs).stop
  unfold Lookahead.isKind Lookahead.kind at h
  rw [Lookahead.token_of_rest_eq_nil (a := σ.small.ahead s.rest) hrest, hstop] at h
  contradiction

variable {statement statement' : Parser ρ Unit} (hstatement : σ.Respects 0 1 statement statement')

include hstatement

theorem separated (hs : σ.rel s s') :
    σ.Outcome (fun _ t t' => σ.Kept 1 s t t') (ScriptForm.separated statement σ.small s)
      (ScriptForm.separated statement' σ.large s') := by
  unfold ScriptForm.separated
  apply (hstatement hs (Nat.zero_le _)).bind _ fun _ => h.forward
  intro _ t t' ht
  have ht := Kept.of_after ht
  apply Outcome.bind (Q := fun _ u u' => σ.Kept 0 t u u') _ _ fun _ => h.forward
  · unfold Parser.eat
    rw [Parser.eatIf_eq, Parser.eatIf_eq, h.isKind_eq ht.rel]
    split
    · cases Outcome.bump_kept ht.rel (rest_ne_nil ht.rel ‹_›) with
      | ok hu => exact .ok (hu.weaken (Nat.zero_le _))
      | gone hgone => exact absurd hgone (not_gone h.behind)
    · exact .ok (Kept.refl ht.rel)
  · intro taken u u' hu
    cases taken with
    | true => exact .ok (ht.trans hu)
    | false =>
      change σ.Outcome _ (Parser.ifSees _ _ σ.small u) (Parser.ifSees _ _ σ.large u')
      rw [Parser.ifSees_eq, Parser.ifSees_eq, h.atEnd_eq hu.rel]
      split
      · exact .expected _ hu.rel
      · exact .ok (ht.trans hu)

theorem entry (form : ScriptForm ρ) (hs : σ.rel s s') :
    σ.Outcome (fun _ t t' => σ.Kept 1 s t t') (form.entry statement σ.small s)
      (form.entry statement' σ.large s') := by
  unfold ScriptForm.entry
  rw [Parser.sees_bind, Parser.sees_bind, h.isKind_eq hs]
  split
  · apply Outcome.production_kept _ hs
    intro t t' ht hrest
    apply Outcome.bump_kept ht
    rw [hrest]
    exact rest_ne_nil hs ‹_›
  · exact h.separated hstatement hs

theorem entries (form : ScriptForm ρ) (hs : σ.rel s s') :
    σ.Outcome (fun _ t t' => σ.Kept 0 s t t') (form.entries statement σ.small s)
      (form.entries statement' σ.large s') := by
  unfold ScriptForm.entries Parser.whileSees Parser.repeatWhile
  apply Outcome.discard
  apply Outcome.iterate (J := fun _ t t' => σ.Kept 0 s t t') _ (fun _ => h.forward) hs
    (Kept.refl hs)
  intro _ t t' ht
  apply Outcome.bind (Q := fun more u u' => σ.Kept (if more then 1 else 0) t u u') _ _
    fun _ => h.forward
  · rw [Parser.sees_bind, Parser.sees_bind, h.atEnd_eq ht.rel]
    split
    · apply (h.entry hstatement form ht.rel).bind _ fun _ => h.forward
      intro _ u u' hu
      exact .ok hu
    · exact .ok (Kept.refl ht.rel)
  · intro more u u' hu
    apply Outcome.ok
    cases more with
    | false => exact ht.trans hu
    | true => exact ⟨(ht.trans hu).weaken (Nat.zero_le _), hu.length_le⟩

theorem script (form : ScriptForm ρ) (hs : σ.rel s s') :
    σ.Outcome (fun _ t t' => σ.Kept 0 s t t') (form.script statement σ.small s)
      (form.script statement' σ.large s') := by
  unfold ScriptForm.script
  apply Outcome.production_kept _ hs
  intro t t' ht _
  rw [Parser.ifSees_eq, Parser.ifSees_eq, h.atEnd_eq ht]
  split
  · apply Outcome.production_kept _ ht
    intro u u' hu _
    exact h.entries hstatement form hu
  · exact .ok (Kept.refl ht)

end Exact

end Simulation

end SqlScript
