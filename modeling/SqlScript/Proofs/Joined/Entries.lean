import SqlScript.Proofs.Joined.Heedless
import SqlScript.Proofs.Lockstep

/-!
The list of statements of a script, entry by entry.
-/

namespace SqlScript

theorem Setting.atEnd_nil {c : Setting} (heof : c.stop.kind = .eof) : (c.ahead []).atEnd := by
  change c.stop.kind.alike .eof
  rw [heof]
  rfl

namespace Parser

variable {ρ α β : Type} {c : Setting}

def Takes (c : Setting) (p : Parser ρ α) : Prop :=
  ∀ ⦃s t : ParserState ρ⦄ ⦃a : α⦄, p c s = .ok a t → t.rest.length < s.rest.length

theorem iterate_go_eq {step : β → Parser ρ (Option β)}
    (hstep : ∀ {v w : β} {s t : ParserState ρ}, step v c s = .ok (some w) t →
      t.rest.length < s.rest.length)
    {rounds rounds' : List Token} {v : β} {s : ParserState ρ}
    (h : s.rest.length < rounds.length) (h' : s.rest.length < rounds'.length) :
    iterate.go step rounds v c s = iterate.go step rounds' v c s := by
  induction rounds generalizing rounds' v s with
  | nil => simp at h
  | cons r rounds ih =>
    cases rounds' with
    | nil => simp at h'
    | cons r' rounds' =>
      unfold iterate.go
      cases hresult : step v c s with
      | error f t => rw [bind_error hresult, bind_error hresult]
      | ok next t =>
        rw [bind_ok hresult, bind_ok hresult]
        cases next with
        | none => rfl
        | some w =>
          have := hstep hresult
          simp only [List.length_cons] at h h'
          apply ih
          · omega
          · omega

def round (step : Parser ρ Bool) (_ : Unit) : Parser ρ (Option Unit) := do
  return if ← step then some () else none

theorem round_some {step : Parser ρ Bool} {v w : Unit} {s t : ParserState ρ}
    (h : round step v c s = .ok (some w) t) : step c s = .ok true t := by
  obtain ⟨more, u, hstep, hpure⟩ := bind_eq_ok (show (step >>= fun more =>
    (pure (if more then some () else none) : Parser ρ (Option Unit))) c s = _ from h)
  cases more with
  | true =>
    cases hpure
    exact hstep
  | false => cases hpure

theorem repeatWhile_go (step : Parser ρ Bool) (s : ParserState ρ) :
    repeatWhile step c s =
      (iterate.go (round step) (c.stop :: s.rest) () >>= fun _ => pure ()) c s :=
  rfl

theorem repeatWhile_of_false {step : Parser ρ Bool} (h : step c s = .ok false s) :
    repeatWhile step c s = .ok () s := by
  have hround : round step () c s = .ok none s := bind_ok h
  rw [repeatWhile_go]
  unfold iterate.go
  rw [bind_ok (bind_ok hround)]
  rfl

theorem whileSees_of_not {question : Lookahead → Bool} {body : Parser ρ Unit}
    (h : question (c.ahead s.rest) = false) : whileSees question body c s = .ok () s := by
  apply repeatWhile_of_false
  rw [sees_bind, h]
  rfl

theorem commaSeparatedFrom_of_not {first item : Parser ρ Unit} (h : first c s = .ok () t)
    (hcomma : (c.ahead t.rest).isKind 0 .comma = false) :
    commaSeparatedFrom first item c s = .ok () t := by
  unfold commaSeparatedFrom
  rw [bind_ok h]
  apply repeatWhile_of_false
  rw [bind_ok (eat_of_not hcomma)]
  rfl

theorem repeatWhile_eq {step : Parser ρ Bool}
    (hstep : ∀ {s t : ParserState ρ}, step c s = .ok true t → t.rest.length < s.rest.length)
    (s : ParserState ρ) :
    repeatWhile step c s =
      (step >>= fun more => if more then repeatWhile step else pure ()) c s := by
  rw [repeatWhile_go]
  cases h : step c s with
  | error f t =>
    have hround : round step () c s = .error f t := bind_error h
    unfold iterate.go
    rw [bind_error h, bind_error (bind_error hround)]
  | ok more t =>
    have hround : round step () c s = .ok (if more then some () else none) t := bind_ok h
    rw [bind_ok h]
    unfold iterate.go
    cases more with
    | false =>
      rw [bind_ok (bind_ok hround)]
      rfl
    | true =>
      have := hstep h
      have hrounds : iterate.go (round step) s.rest () c t =
          iterate.go (round step) (c.stop :: t.rest) () c t := by
        apply iterate_go_eq
        · intro v w s t h
          exact hstep (round_some h)
        · omega
        · simp
      change _ = repeatWhile step c t
      rw [repeatWhile_go]
      cases hgo : iterate.go (round step) (c.stop :: t.rest) () c t with
      | ok v u =>
        rw [bind_ok hgo, bind_ok]
        rw [bind_ok hround]
        exact hrounds.trans hgo
      | error f u =>
        rw [bind_error hgo, bind_error]
        rw [bind_ok hround]
        exact hrounds.trans hgo

def asking (question : Lookahead → Bool) (body : Parser ρ Unit) : Parser ρ Bool := do
  if ← sees question then
    body
    return true
  else
    return false

theorem asking_eq (question : Lookahead → Bool) (body : Parser ρ Unit) (s : ParserState ρ) :
    asking question body c s =
      if question (c.ahead s.rest) then (body >>= fun _ => pure true) c s else .ok false s := by
  unfold asking
  rw [sees_bind]
  split <;> rfl

theorem whileSees_eq {question : Lookahead → Bool} {body : Parser ρ Unit} (hbody : Takes c body)
    (s : ParserState ρ) :
    whileSees question body c s =
      if question (c.ahead s.rest) then (body >>= fun _ => whileSees question body) c s
      else .ok () s := by
  have hstep : ∀ {s t : ParserState ρ}, asking question body c s = .ok true t →
      t.rest.length < s.rest.length := by
    intro s t h
    rw [asking_eq] at h
    split at h
    · obtain ⟨_, u, hu, hpure⟩ := bind_eq_ok h
      cases hpure
      exact hbody hu
    · cases h
  change repeatWhile (asking question body) c s = _
  rw [repeatWhile_eq hstep]
  split
  · rename_i hquestion
    cases h : body c s with
    | ok _ t =>
      have hmore : asking question body c s = .ok true t := by
        rw [asking_eq, if_pos hquestion, bind_ok h]
        rfl
      rw [bind_ok h, bind_ok hmore]
      rfl
    | error f t =>
      have hmore : asking question body c s = .error f t := by
        rw [asking_eq, if_pos hquestion, bind_error h]
      rw [bind_error h, bind_error hmore]
  · rename_i hquestion
    have hdone : asking question body c s = .ok false s := by
      rw [asking_eq, if_neg hquestion]
    rw [bind_ok hdone]
    rfl

end Parser

open Simulation

variable {ρ : Type}

/--
A parser of statements that cannot tell what is in front of a statement or behind it.
-/
structure Parser.Joinable (dialect : Dialect) (limit : Nat) (statement : Parser ρ Unit) :
    Prop where
  respects (σ : Simulation ρ) : σ.small.dialect = dialect → σ.small.limit = limit →
    σ.large.limit = limit → σ.Respects 0 1 statement statement
  heedless (t : Token) : Heedless t statement

variable {statement : Parser ρ Unit} {c : Setting}

theorem Parser.Joinable.takes (h : Joinable c.dialect c.limit statement)
    (heof : c.stop.kind = .eof) : Takes c statement := by
  intro s t _ ht
  have hrespects := h.respects (lockstep (.refl heof) (.trivial ρ)) rfl rfl rfl
  have hrel : (lockstep (.refl heof) (.trivial ρ)).rel s s := ⟨rfl, trivial⟩
  have houtcome := hrespects hrel (Nat.zero_le _)
  change Outcome _ _ (statement c s) (statement c s) at houtcome
  rw [ht] at houtcome
  cases houtcome with
  | ok hafter => exact hafter.took.length_le
  | gone hgone => exact absurd hgone (Simulation.not_gone rfl)

namespace ScriptForm

open SqlScript.Parser

variable {form : ScriptForm ρ}

theorem exists_semicolon (heof : c.stop.kind = .eof) {ts : List Token}
    (h : (c.ahead ts).isKind 0 .semicolon) : ∃ t rest, ts = t :: rest ∧ t.kind = .semicolon := by
  cases ts with
  | nil =>
    have hstop : c.stop.kind = .semicolon := TokenKind.eq_semicolon_of_alike h
    rw [heof] at hstop
    contradiction
  | cons t rest => exact ⟨t, rest, rfl, TokenKind.eq_semicolon_of_alike h⟩

theorem separated_ok {s t : ParserState ρ} (h : statement c s = .ok () t) :
    separated statement c s =
      if (c.ahead t.rest).isKind 0 .semicolon then .ok () t.advance
      else if (c.ahead t.rest).atEnd then .ok () t
      else expected "';' or end of input" c t := by
  unfold separated eat
  rw [bind_ok h]
  split
  · rename_i hkind
    have heat : (eatIf (·.isKind 0 .semicolon) : Parser ρ Bool) c t = .ok true t.advance := by
      rw [eatIf_eq, if_pos hkind]
    rw [bind_ok heat]
    rfl
  · rename_i hkind
    have heat : (eatIf (·.isKind 0 .semicolon) : Parser ρ Bool) c t = .ok false t := by
      rw [eatIf_eq, if_neg hkind]
    rw [bind_ok heat]
    change ifSees _ _ c t = _
    rw [ifSees_eq]
    cases (c.ahead t.rest).atEnd <;> rfl

theorem entry_eq (s : ParserState ρ) :
    form.entry statement c s =
      if (c.ahead s.rest).isKind 0 .semicolon then
        .ok () ((s.build (·.start form.empty)).advance.build (·.finish))
      else separated statement c s := by
  unfold entry
  rw [sees_bind]
  split <;> rfl

theorem entry_takes (heof : c.stop.kind = .eof) (hstatement : Takes c statement) :
    Takes c (form.entry statement) := by
  intro s t _ h
  rw [entry_eq] at h
  split at h
  · rename_i hkind
    cases h
    obtain ⟨semicolon, rest, hrest, -⟩ := exists_semicolon heof hkind
    simp [hrest]
  · cases hresult : statement c s with
    | error f u =>
      unfold separated at h
      rw [bind_error hresult] at h
      contradiction
    | ok _ u =>
      have := hstatement hresult
      rw [separated_ok hresult] at h
      split at h
      · cases h
        simp
        omega
      split at h
      · cases h
        exact this
      · contradiction

theorem entries_eq (heof : c.stop.kind = .eof) (hstatement : Takes c statement)
    (s : ParserState ρ) :
    form.entries statement c s =
      if (c.ahead s.rest).atEnd then .ok () s
      else (form.entry statement >>= fun _ => form.entries statement) c s := by
  unfold entries
  rw [whileSees_eq (entry_takes heof hstatement)]
  cases (c.ahead s.rest).atEnd <;> rfl

theorem entries_nil (heof : c.stop.kind = .eof) (hstatement : Takes c statement)
    (b : Tree.Builder ρ) : form.entries statement c ⟨[], b⟩ = .ok () ⟨[], b⟩ := by
  rw [entries_eq heof hstatement, if_pos (Setting.atEnd_nil heof)]

theorem entries_heedless (form : ScriptForm ρ) {t : Token} (heof : c.stop.kind = .eof)
    (hstatement : Takes c statement) (hheedless : Heedless t statement) (ht : t.kind ≠ .eof)
    (ts : List Token) (b : Tree.Builder ρ) (offset : Nat) :
    Agree (form.entries statement c ⟨t :: ts, b⟩)
      (form.entries statement c ⟨t :: ts, b.setOffset offset⟩) := by
  have hend : ¬(c.ahead (t :: ts)).atEnd := fun hend => ht (TokenKind.eq_eof_of_alike hend)
  have hentry : Heedless t (form.entry statement) := by
    unfold entry separated
    apply Heedless.sees_ite
    · exact Heedless.bump.production _
    · exact hheedless.bind
  rw [entries_eq heof hstatement, entries_eq heof hstatement ⟨t :: ts, b.setOffset offset⟩,
    if_neg hend, if_neg hend]
  exact hentry.bind c ts b offset

end ScriptForm

end SqlScript
