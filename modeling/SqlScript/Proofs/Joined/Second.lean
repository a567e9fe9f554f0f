import SqlScript.Proofs.Joined.First
import SqlScript.Proofs.Joined.Relocation
import SqlScript.Proofs.Layout

/-!
The second of two scripts that are joined. It is taken as if it stood alone, but builds behind what
has been built for the first one.
-/

namespace SqlScript

open SqlScript.Simulation
open SqlScript.Tree

variable {ρ : Type} {c c' : Setting}

/--
The second builder has what the first one has, at other places and on top of what was built before.
-/
structure Tree.Builder.Above (size : Nat) (before : List (Element ρ)) (outer : List ρ)
    (b b' : Builder ρ) : Prop where
  opened : b'.opened = b.opened.map (fun (rule, first) => (rule, before.length + first)) ++
    outer.map fun rule => (rule, 0)
  pending : b'.pending.toList = before ++ b.pending.toList.map (Element.relocate (Span.shift size))
  offset : b'.offset = size + b.offset

namespace Tree.Builder.Above

variable {size : Nat} {before : List (Element ρ)} {outer : List ρ} {b b' : Builder ρ}

theorem size_eq (h : b.Above size before outer b') :
    b'.pending.size = before.length + b.pending.size := by
  rw [← Array.length_toList, h.pending]
  simp

theorem start (h : b.Above size before outer b') (rule : ρ) :
    (b.start rule).Above size before outer (b'.start rule) where
  opened := by simp [Builder.start, h.opened, h.size_eq]
  pending := h.pending
  offset := h.offset

theorem startAt (h : b.Above size before outer b') (checkpoint : Nat) (rule : ρ) :
    (b.startAt checkpoint rule).Above size before outer
      (b'.startAt (before.length + checkpoint) rule) where
  opened := by
    have hfloor : max (before.length + checkpoint) b'.floor =
        before.length + max checkpoint b.floor := by
      unfold floor
      rw [h.opened]
      cases hb : b.opened with
      | nil => cases outer <;> simp
      | cons e es => simp [Nat.add_max_add_left]
    simp [Builder.startAt, h.opened, hfloor]
  pending := h.pending
  offset := h.offset

theorem token (h : b.Above size before outer b') (t : Token) :
    (b.token t).Above size before outer (b'.token (t.relocate (Span.shift size))) where
  opened := h.opened
  pending := by simp [h.pending]
  offset := rfl

theorem spanOf_relocate (size offset : Nat) (es : List (Element ρ)) :
    spanOf (size + offset) (es.map (Element.relocate (Span.shift size))) =
      (spanOf offset es).shift size := by
  unfold spanOf
  rw [List.head?_map, List.getLast?_map]
  cases es.head? <;> cases es.getLast? <;> simp [Span.shift, Span.empty]

theorem finish (h : b.Above size before outer b') (hopened : b.opened ≠ []) :
    b.finish.Above size before outer b'.finish := by
  obtain ⟨⟨rule, first⟩, opened, hb⟩ := List.exists_cons_of_ne_nil hopened
  have hb' : b'.opened = (rule, before.length + first) ::
      (opened.map (fun (rule, first) => (rule, before.length + first)) ++
        outer.map fun rule => (rule, 0)) := by
    rw [h.opened, hb]
    rfl
  constructor
  · simp [Builder.finish, hb, hb']
  · rw [pending_finish hb, pending_finish hb']
    rw [h.pending, List.take_length_add_append, List.drop_length_add_append, h.offset,
      ← List.map_drop, ← List.map_take, spanOf_relocate]
    simp [Node.relocate, relocateAll_eq]
  · rw [offset_finish, offset_finish]
    exact h.offset

end Tree.Builder.Above

theorem Alike.map_relocate (f : Span → Span) (ts : List Token) :
    Alike ts (ts.map (Token.relocate f)) := by
  induction ts with
  | nil => exact .nil
  | cons t ts ih => exact .cons rfl ih

/--
The second run is on the same tokens at other places, and builds above what was built before.
-/
def Simulation.second (h : c.Like c') (size : Nat) (before : List (Element ρ)) (outer : List ρ) :
    Simulation ρ where
  small := c
  large := c'
  rel s s' := s'.rest = s.rest.map (Token.relocate (Span.shift size)) ∧
    s.builder.Above size before outer s'.builder
  mark m m' := m' = before.length + m
  excused _ := False
  matched _ _ := True
  sees := by
    rintro s ⟨_, b'⟩ ⟨rfl, -⟩
    refine ⟨h.dialect, Nat.le_of_eq h.limit.symm, h.eof, h.eof', .map_relocate _ _, .inl ?_, ?_⟩
    · simp
    · simp
  advance := by
    rintro ⟨ts, b⟩ ⟨_, b'⟩ ⟨rfl, hb⟩ hrest
    cases ts with
    | nil => contradiction
    | cons t ts => exact ⟨rfl, hb.token t⟩
  start rule hs := ⟨hs.1, hs.2.start rule⟩
  startAt := by
    rintro s s' m _ rule hs rfl
    exact ⟨hs.1, hs.2.startAt m rule⟩
  finish hs hopened := ⟨hs.1, hs.2.finish hopened⟩
  checkpoint hs := hs.2.size_eq
  complain _ _ := .inr trivial
  lenient hs := .inl (by simp [hs.1])
  tooDeep := h.tooDeep

theorem Simulation.second_exact (h : c.Like c') (size : Nat) (before : List (Element ρ))
    (outer : List ρ) : (second h size before outer).Exact where
  length_eq := by
    rintro s s' ⟨hrest, -⟩
    simp [hrest]
  behind := rfl

namespace ScriptForm

open SqlScript.Parser

variable {form : ScriptForm ρ} {statement : Parser ρ Unit}

def opening (form : ScriptForm ρ) : Builder ρ :=
  (Builder.empty.start form.root).start form.list

section

variable (hstatement : Joinable c.dialect c.limit statement)

include hstatement

theorem exists_entries_empty (heof : c.stop.kind = .eof) {ts : List Token} {t : ParserState ρ}
    (h : form.entries statement c ⟨ts, form.opening⟩ = .ok () t) :
    ∃ u, form.entries statement c ⟨ts, .empty⟩ = .ok () u ∧ u.rest = t.rest ∧
      u.builder.opened = [] ∧ t.builder.opened = form.opening.opened ∧
      u.builder.pending.toList = t.builder.pending.toList := by
  have htokens : ∀ ts : List Token, ts.map (Token.relocate (Span.shift 0)) = ts := by
    intro ts
    apply List.map_id''
    simp [Token.relocate]
  have helements : ∀ es : List (Element ρ), es.map (Element.relocate (Span.shift 0)) = es := by
    intro es
    exact List.map_id'' (Element.relocate_eq_self Span.shift_zero) es
  have hrel : (Simulation.second (.refl heof) 0 [] [form.list, form.root]).rel ⟨ts, .empty⟩
      ⟨ts, form.opening⟩ :=
    ⟨(htokens ts).symm, rfl, rfl, rfl⟩
  have hentries := (Simulation.second_exact (.refl heof) 0 [] [form.list, form.root]).entries
    (hstatement.respects _ rfl rfl rfl) form hrel
  change Outcome _ _ (form.entries statement c _) (form.entries statement c _) at hentries
  rw [h] at hentries
  generalize form.entries statement c ⟨ts, .empty⟩ = r at hentries
  cases hentries with
  | @ok _ u _ hkept =>
    obtain ⟨hrest, habove⟩ := hkept.rel
    rw [htokens] at hrest
    have hopened : u.builder.opened = [] := hkept.opened
    have hpending := habove.pending
    rw [helements, List.nil_append] at hpending
    refine ⟨u, rfl, hrest.symm, hopened, ?_, hpending.symm⟩
    rw [habove.opened, hopened]
    rfl
  | excused hexcused => exact hexcused.elim
  | gone hgone => exact absurd hgone (Simulation.not_gone rfl)

theorem exists_entries_above (hlike : c.Like c') {ts : List Token} {t : ParserState ρ}
    (h : form.entries statement c ⟨ts, form.opening⟩ = .ok () t) (heof : ∀ t ∈ ts, t.kind ≠ .eof)
    (size : Nat) {b : Builder ρ} (hb : b.opened = form.opening.opened) :
    ∃ u, form.entries statement c' ⟨ts.map (Token.relocate (Span.shift size)), b⟩ = .ok () u ∧
      u.rest = t.rest.map (Token.relocate (Span.shift size)) ∧
      u.builder.opened = form.opening.opened ∧
      u.builder.pending.toList =
        b.pending.toList ++ t.builder.pending.toList.map (Element.relocate (Span.shift size)) := by
  have hstatement' : Joinable c'.dialect c'.limit statement := by
    rw [hlike.dialect, hlike.limit]
    exact hstatement
  have htakes' := hstatement'.takes hlike.eof'
  cases ts with
  | nil =>
    rw [entries_nil hlike.eof (hstatement.takes hlike.eof)] at h
    cases h
    rw [List.map_nil, entries_nil hlike.eof' htakes']
    exact ⟨_, rfl, rfl, hb, (List.append_nil _).symm⟩
  | cons a as =>
    obtain ⟨v, hv, hrest, hopened, -, hpending⟩ := exists_entries_empty hstatement hlike.eof h
    have hrel : (Simulation.second hlike size b.pending.toList [form.list, form.root]).rel
        ⟨a :: as, .empty⟩
        ⟨(a :: as).map (Token.relocate (Span.shift size)), b.setOffset size⟩ := by
      refine ⟨rfl, hb, ?_, rfl⟩
      simp [Builder.setOffset, Builder.empty]
    have hentries := (Simulation.second_exact hlike size b.pending.toList
      [form.list, form.root]).entries (hstatement.respects _ rfl rfl hlike.limit) form hrel
    change Outcome _ _ (form.entries statement c _) (form.entries statement c' _) at hentries
    rw [hv] at hentries
    have hagree := entries_heedless form hlike.eof' htakes'
      (hstatement.heedless (a.relocate (Span.shift size))) (heof a (by simp))
      (as.map (Token.relocate (Span.shift size))) b size
    rw [← List.map_cons] at hagree
    generalize form.entries statement c'
      ⟨(a :: as).map (Token.relocate (Span.shift size)), b.setOffset size⟩ = r at hagree hentries
    cases hentries with
    | @ok _ _ u hkept =>
      obtain ⟨hrest', habove⟩ := hkept.rel
      generalize form.entries statement c'
        ⟨(a :: as).map (Token.relocate (Span.shift size)), b⟩ = r at hagree
      cases hagree
      rw [hrest] at hrest'
      refine ⟨u, rfl, hrest', ?_, ?_⟩
      · rw [habove.opened, hopened]
        rfl
      · rw [habove.pending, hpending]
    | gone hgone => exact absurd hgone (Simulation.not_gone rfl)

end

end ScriptForm

end SqlScript
