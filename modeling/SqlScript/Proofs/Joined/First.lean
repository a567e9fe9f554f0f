import SqlScript.Proofs.Joined.Entries

/-!
The first of two scripts that are joined. Its statements are taken as if it stood alone, and what
the separator adds depends on the last of its tokens only.
-/

namespace SqlScript

open SqlScript.Simulation
open Token (Closed)

structure Setting.Like (c c' : Setting) : Prop where
  dialect : c'.dialect = c.dialect
  limit : c'.limit = c.limit
  eof : c.stop.kind = .eof
  eof' : c'.stop.kind = .eof

theorem Setting.Like.refl {c : Setting} (heof : c.stop.kind = .eof) : c.Like c :=
  ⟨rfl, rfl, heof, heof⟩

theorem Setting.Like.tooDeep {c c' : Setting} (h : c.Like c') (hlimit : c.limit < c'.limit)
    (_ : Token) : False := by
  rw [h.limit] at hlimit
  exact absurd hlimit (Nat.lt_irrefl _)

theorem Alike.of_semicolon {semicolon : Token} (h : semicolon.kind = .semicolon)
    (ts rest : List Token) : Alike ts (ts ++ semicolon :: rest) := by
  induction ts with
  | nil => exact .ends h
  | cons t ts ih => exact .cons rfl ih

variable {ρ : Type} {c c' : Setting} {semicolon : Token}

/--
The second run is on a text that goes on behind a semicolon where the text of the first run ends.
-/
def Simulation.first (ρ : Type) (h : c.Like c') (hsemicolon : semicolon.kind = .semicolon)
    (rest : List Token) : Simulation ρ where
  small := c
  large := c'
  rel s s' := s' = { s with rest := s.rest ++ semicolon :: rest } ∧ Closed s.rest
  mark m m' := m' = m
  excused _ := True
  matched _ _ := True
  sees := by
    rintro s _ ⟨rfl, hs⟩
    refine ⟨h.dialect, Nat.le_of_eq h.limit.symm, h.eof, h.eof', ?_, .inr hs, ?_⟩
    · exact .of_semicolon hsemicolon _ _
    · intro hlimit
      have hlimit : c.limit < c'.limit := hlimit
      rw [h.limit] at hlimit
      exact absurd hlimit (Nat.lt_irrefl _)
  advance := by
    rintro s _ ⟨rfl, hs⟩ hrest
    obtain ⟨t, ts, hts⟩ := List.exists_cons_of_ne_nil hrest
    rw [hts] at hs
    unfold ParserState.advance
    simp only [hts, List.cons_append]
    exact ⟨trivial, hs.tail⟩
  start := by
    rintro s _ rule ⟨rfl, hs⟩
    exact ⟨rfl, hs⟩
  startAt := by
    rintro s _ m _ rule ⟨rfl, hs⟩ rfl
    exact ⟨rfl, hs⟩
  finish := by
    rintro s _ ⟨rfl, hs⟩ _
    exact ⟨rfl, hs⟩
  checkpoint := by
    rintro s _ ⟨rfl, -⟩
    rfl
  complain _ _ := .inl trivial
  lenient _ := .inr (.inl fun _ => trivial)
  tooDeep _ _ := trivial

/--
Is the last of these tokens one of a statement, with no semicolon behind it?
-/
def Token.unfinished (ts : List Token) : Bool :=
  ts.getLast?.any (·.kind != .semicolon)

/--
What a semicolon adds to a list of statements: it ends the last one, or is an empty one.
-/
def ScriptForm.close (form : ScriptForm ρ) (unfinished : Bool) (semicolon : Token)
    (b : Tree.Builder ρ) : Tree.Builder ρ :=
  if unfinished then b.token semicolon else ((b.start form.empty).token semicolon).finish

theorem Token.unfinished_append {t : Token} (h : t.kind = .semicolon) (ts us : List Token) :
    unfinished (ts ++ t :: us) = unfinished us := by
  unfold unfinished
  rw [List.getLast?_append, List.getLast?_cons]
  cases us.getLast? with
  | none => simp [h]
  | some last => rfl

theorem Token.unfinished_of_took {ts : List Token} (h : Took 1 ts []) : unfinished ts := by
  obtain ⟨taken, rfl, hlength, hlast⟩ := h
  rw [List.append_nil]
  unfold unfinished
  cases hlast? : taken.getLast? with
  | none =>
    rw [List.getLast?_eq_none_iff.1 hlast?] at hlength
    contradiction
  | some last =>
    rw [hlast?] at hlast
    simpa using hlast

namespace ScriptForm

open SqlScript.Parser

variable {form : ScriptForm ρ} {statement : Parser ρ Unit} {rest : List Token}

section

variable (h : c.Like c') (hsemicolon : semicolon.kind = .semicolon)
  (hstatement : (Simulation.first ρ h hsemicolon rest).Respects 0 1 statement statement)

include hstatement

theorem separated_joined {ts : List Token} {b : Tree.Builder ρ} {u : ParserState ρ}
    (hclosed : Closed ts) (heof : ∀ t ∈ ts, t.kind ≠ .eof)
    (hseparated : separated statement c ⟨ts, b⟩ = .ok () u) :
    (separated statement c' ⟨ts ++ semicolon :: rest, b⟩ =
          .ok () ⟨rest, u.builder.token semicolon⟩ ∧ u.rest = [] ∧ Token.unfinished ts) ∨
      separated statement c' ⟨ts ++ semicolon :: rest, b⟩ =
          .ok () ⟨u.rest ++ semicolon :: rest, u.builder⟩ ∧
        ∃ taken t, ts = taken ++ t :: u.rest ∧ t.kind = .semicolon := by
  obtain ⟨_, v, hv, -⟩ := bind_eq_ok hseparated
  have hrel : (Simulation.first ρ h hsemicolon rest).rel ⟨ts, b⟩ ⟨ts ++ semicolon :: rest, b⟩ :=
    ⟨rfl, hclosed⟩
  have hrespects := hstatement hrel (Nat.zero_le _)
  change (Simulation.first ρ h hsemicolon rest).Outcome _ (statement c _) (statement c' _)
    at hrespects
  rw [hv] at hrespects
  generalize hv' : statement c' ⟨ts ++ semicolon :: rest, b⟩ = r' at hrespects
  cases hrespects with
  | @ok _ _ v' hafter =>
    have hrel : v' = { v with rest := v.rest ++ semicolon :: rest } := hafter.rel.1
    obtain ⟨us, vbuilder⟩ := v
    subst hrel
    have htook : Took 1 ts us := hafter.took
    rw [separated_ok hv] at hseparated
    rw [separated_ok hv']
    cases us with
    | nil =>
      have hkind : ¬(c.ahead []).isKind 0 .semicolon := by
        intro hkind
        obtain ⟨t, us, hnil, -⟩ := exists_semicolon h.eof hkind
        contradiction
      have hkind' : (c'.ahead (semicolon :: rest)).isKind 0 .semicolon := by
        change semicolon.kind.alike .semicolon
        rw [hsemicolon]
        rfl
      rw [if_neg hkind, if_pos (Setting.atEnd_nil h.eof)] at hseparated
      cases hseparated
      exact .inl ⟨if_pos hkind', rfl, Token.unfinished_of_took htook⟩
    | cons t us =>
      obtain ⟨taken, hts, -⟩ := htook
      split at hseparated
      · rename_i hkind
        have ht : t.kind = .semicolon := TokenKind.eq_semicolon_of_alike hkind
        cases hseparated
        exact .inr ⟨if_pos hkind, taken, t, hts, ht⟩
      split at hseparated
      · rename_i hend
        have ht : t.kind = .eof := TokenKind.eq_eof_of_alike hend
        exact absurd ht (heof t (by simp [hts]))
      · contradiction
  | gone hgone => exact absurd hgone (Simulation.not_gone rfl)

theorem entry_joined {t : Token} {ts : List Token} {b : Tree.Builder ρ} {u : ParserState ρ}
    (hclosed : Closed (t :: ts)) (heof : ∀ u ∈ t :: ts, u.kind ≠ .eof)
    (hentry : form.entry statement c ⟨t :: ts, b⟩ = .ok () u) :
    (form.entry statement c' ⟨t :: ts ++ semicolon :: rest, b⟩ =
          .ok () ⟨rest, u.builder.token semicolon⟩ ∧ u.rest = [] ∧ Token.unfinished (t :: ts)) ∨
      form.entry statement c' ⟨t :: ts ++ semicolon :: rest, b⟩ =
          .ok () ⟨u.rest ++ semicolon :: rest, u.builder⟩ ∧
        ∃ taken t', t :: ts = taken ++ t' :: u.rest ∧ t'.kind = .semicolon := by
  rw [entry_eq] at hentry ⊢
  change (if t.kind.alike .semicolon then _ else _) = _ at hentry
  change (if t.kind.alike .semicolon then _ else _) = _ ∧ _ ∨
    (if t.kind.alike .semicolon then _ else _) = _ ∧ _
  split at hentry
  · rename_i hkind
    cases hentry
    rw [if_pos hkind]
    exact .inr ⟨rfl, [], t, rfl, TokenKind.eq_semicolon_of_alike hkind⟩
  · rename_i hkind
    rw [if_neg hkind]
    exact separated_joined h hsemicolon hstatement hclosed heof hentry

theorem entries_joined (htakes : Takes c statement) (htakes' : Takes c' statement)
    {ts : List Token} {b : Tree.Builder ρ} {u : ParserState ρ} (hclosed : Closed ts)
    (heof : ∀ t ∈ ts, t.kind ≠ .eof) (hentries : form.entries statement c ⟨ts, b⟩ = .ok () u) :
    form.entries statement c' ⟨ts ++ semicolon :: rest, b⟩ =
      form.entries statement c'
        ⟨rest, form.close (Token.unfinished ts) semicolon u.builder⟩ := by
  induction hlen : ts.length using Nat.strongRecOn generalizing ts b with
  | ind n ih =>
  cases ts with
  | nil =>
    have hkind : (c'.ahead (semicolon :: rest)).isKind 0 .semicolon := by
      change semicolon.kind.alike .semicolon
      rw [hsemicolon]
      rfl
    have hend : ¬(c'.ahead (semicolon :: rest)).atEnd := by
      intro hend
      have heof : semicolon.kind = .eof := TokenKind.eq_eof_of_alike hend
      rw [hsemicolon] at heof
      contradiction
    have hentry : form.entry statement c' ⟨semicolon :: rest, b⟩ =
        .ok () ⟨rest, form.close false semicolon b⟩ := by
      rw [entry_eq, if_pos hkind]
      rfl
    rw [entries_nil h.eof htakes] at hentries
    cases hentries
    rw [List.nil_append, entries_eq h.eof' htakes', if_neg hend, bind_ok hentry]
    rfl
  | cons t ts =>
    have hend : ¬(c.ahead (t :: ts)).atEnd := by
      intro hend
      exact heof t (by simp) (TokenKind.eq_eof_of_alike hend)
    have hend' : ¬(c'.ahead (t :: ts ++ semicolon :: rest)).atEnd := hend
    rw [entries_eq h.eof htakes, if_neg hend] at hentries
    obtain ⟨_, ⟨us, vbuilder⟩, hv, hentries⟩ := bind_eq_ok hentries
    rw [entries_eq h.eof' htakes' ⟨t :: ts ++ semicolon :: rest, b⟩, if_neg hend']
    obtain ⟨hv', hnil, hunfinished⟩ | ⟨hv', taken, t', hts, ht'⟩ :=
      entry_joined h hsemicolon hstatement hclosed heof hv
    · have hnil : us = [] := hnil
      subst hnil
      rw [entries_nil h.eof htakes] at hentries
      cases hentries
      rw [bind_ok hv', hunfinished]
      rfl
    · have hts : t :: ts = taken ++ t' :: us := hts
      have hus : us = (t :: ts).drop (taken.length + 1) := by
        rw [hts, List.drop_length_add_append]
        rfl
      have hlt : us.length < n := by
        rw [← hlen, hts]
        simp
        omega
      have heof : ∀ u ∈ us, u.kind ≠ .eof := by
        intro u hu
        apply heof
        simp [hts, hu]
      rw [bind_ok hv', hts, Token.unfinished_append ht']
      exact ih _ hlt (hus ▸ hclosed.drop _) heof hentries rfl

end

end ScriptForm

end SqlScript
