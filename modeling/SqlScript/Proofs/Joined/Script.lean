import SqlScript.Proofs.Joined.Second
import SqlScript.Proofs.Lossless

/-!
The statements in the tree of a script that is joined from two others.
-/

namespace SqlScript

open SqlScript.Tree

variable {ρ : Type} {c c' : Setting}

namespace Parser

theorem takeTree_ok {ts : List Token} {b : Builder ρ} {root : Node ρ}
    (h : answer (takeTree c ⟨ts, b⟩) = .ok root) :
    (c.ahead ts).atEnd ∧ (b.setOffset c.stop.span.start).tree? = some root := by
  rw [takeTree_eq] at h
  split at h
  · rename_i hend
    refine ⟨hend, ?_⟩
    split at h
    · rename_i root' hroot
      cases h
      exact hroot
    · contradiction
  · contradiction

theorem takeTree_of_tree? (heof : c.stop.kind = .eof) {b : Builder ρ} {root : Node ρ}
    (h : (b.setOffset c.stop.span.start).tree? = some root) :
    answer (takeTree c ⟨[], b⟩) = .ok root := by
  rw [takeTree_eq, if_pos (Setting.atEnd_nil heof)]
  dsimp only
  rw [h]
  rfl

end Parser

variable [DecidableEq ρ] {form : ScriptForm ρ} {statement : Parser ρ Unit}

namespace ScriptForm

open SqlScript.Parser

def statementsIn (form : ScriptForm ρ) (root : Node ρ) : List (Node ρ) :=
  match root.child? form.list with
  | some list => list.childNodes
  | none => []

theorem exists_tree (form : ScriptForm ρ) {b : Builder ρ} (hb : b.opened = form.opening.opened)
    (offset : Nat) :
    ∃ root, (b.finish.finish.setOffset offset).tree? = some root ∧
      form.statementsIn root = b.pending.toList.filterMap Element.node? := by
  have hb : b.opened = [(form.list, 0), (form.root, 0)] := hb
  have hopened := Builder.opened_finish hb
  have hlist := Builder.pending_finish hb
  have hroot := Builder.pending_finish hopened
  rw [List.drop_zero, List.take_zero, List.nil_append] at hlist hroot
  refine ⟨⟨form.root, Builder.spanOf b.finish.offset b.finish.pending.toList,
    b.finish.pending.toList⟩, ?_, ?_⟩
  · unfold Builder.tree? Builder.setOffset
    rw [Builder.opened_finish hopened]
    simp [Nat.repeat, hroot]
  · rw [hlist]
    unfold statementsIn
    simp [Node.child?, Node.findChild?, Node.childNodes, Element.node?]

omit [DecidableEq ρ] in
theorem script_eq (form : ScriptForm ρ) (statement : Parser ρ Unit) {ts : List Token}
    (hts : ¬(c.ahead ts).atEnd) :
    form.script statement c ⟨ts, .empty⟩ =
      (form.entries statement >>= fun _ => build fun b => b.finish.finish) c
        ⟨ts, form.opening⟩ := by
  have hlist : ifSees (!·.atEnd) (production form.list (form.entries statement)) c
      ⟨ts, Builder.empty.start form.root⟩ =
      (form.entries statement >>= fun _ => finish) c ⟨ts, form.opening⟩ := by
    rw [ifSees_eq, if_pos]
    · rfl
    · simpa using hts
  change (ifSees _ _ >>= fun _ => finish) c ⟨ts, Builder.empty.start form.root⟩ = _
  cases h : form.entries statement c ⟨ts, form.opening⟩ with
  | ok _ t =>
    have hfinish : (finish : Parser ρ Unit) c t = .ok () (t.build (·.finish)) := rfl
    rw [bind_ok h, bind_ok ((hlist.trans (bind_ok h)).trans hfinish)]
    rfl
  | error f t =>
    rw [bind_error h, bind_error (hlist.trans (bind_error h))]

def endless (ρ : Type) : Invariant ρ where
  holds s := ∀ t ∈ s.rest, t.kind ≠ .eof
  advance := by
    intro s hs _ t ht
    rw [ParserState.rest_advance] at ht
    exact hs t (List.mem_of_mem_tail ht)
  start _ hs := hs
  startAt _ _ hs := hs
  finish hs := hs

section

variable (hstatement : Joinable c.dialect c.limit statement) (heof : c.stop.kind = .eof)

include hstatement heof

omit [DecidableEq ρ] in
theorem entries_endless {ts : List Token} (hts : ∀ t ∈ ts, t.kind ≠ .eof) {b : Builder ρ}
    {t : ParserState ρ} (h : form.entries statement c ⟨ts, b⟩ = .ok () t) :
    ∀ u ∈ t.rest, u.kind ≠ .eof := by
  have hrel : (Simulation.lockstep (.refl heof) (endless ρ)).rel ⟨ts, b⟩ ⟨ts, b⟩ := ⟨rfl, hts⟩
  have hentries := (Simulation.lockstep_exact (.refl heof) (endless ρ)).entries
    (hstatement.respects _ rfl rfl rfl) form hrel
  change Simulation.Outcome _ _ (form.entries statement c _) (form.entries statement c _)
    at hentries
  rw [h] at hentries
  cases hentries with
  | ok hkept => exact hkept.rel.2
  | gone hgone => exact absurd hgone (Simulation.not_gone rfl)

theorem exists_entries_of_script {ts : List Token} (hts : ∀ t ∈ ts, t.kind ≠ .eof) {root : Node ρ}
    (h : answer ((form.script statement >>= fun _ => takeTree) c ⟨ts, .empty⟩) = .ok root) :
    ∃ b, form.entries statement c ⟨ts, form.opening⟩ = .ok () ⟨[], b⟩ ∧
      form.statementsIn root = b.pending.toList.filterMap Element.node? := by
  cases ts with
  | nil =>
    have hscript : form.script statement c ⟨[], .empty⟩ =
        .ok () ⟨[], (Builder.empty.start form.root).finish⟩ := by
      have hbody : ifSees (!·.atEnd) (production form.list (form.entries statement)) c
          ⟨[], Builder.empty.start form.root⟩ = .ok () ⟨[], Builder.empty.start form.root⟩ := by
        rw [ifSees_eq, Setting.atEnd_nil heof]
        rfl
      exact bind_ok hbody
    rw [bind_ok hscript] at h
    obtain ⟨-, htree⟩ := takeTree_ok h
    cases htree
    exact ⟨_, entries_nil heof (hstatement.takes heof) _, rfl⟩
  | cons t ts =>
    have hend : ¬(c.ahead (t :: ts)).atEnd :=
      fun hend => hts t (by simp) (TokenKind.eq_eof_of_alike hend)
    have hscript := script_eq form statement hend
    cases hentries : form.entries statement c ⟨t :: ts, form.opening⟩ with
    | error f u =>
      rw [bind_error hentries] at hscript
      rw [bind_error hscript] at h
      contradiction
    | ok _ u =>
      obtain ⟨us, b⟩ := u
      obtain ⟨-, -, -, -, hopened, -⟩ := exists_entries_empty hstatement heof hentries
      rw [bind_ok hentries] at hscript
      rw [bind_ok (hscript.trans (build_eq _))] at h
      obtain ⟨hend, htree⟩ := takeTree_ok h
      have hus : us = [] := rest_eq_nil_of_atEnd hend (entries_endless hstatement heof hts hentries)
      subst hus
      obtain ⟨root', hroot', hstatements⟩ := exists_tree form hopened c.stop.span.start
      cases hroot'.symm.trans htree
      exact ⟨b, rfl, hstatements⟩

omit hstatement in
theorem exists_script_of_entries {ts : List Token} (hend : ¬(c.ahead ts).atEnd) {b : Builder ρ}
    (h : form.entries statement c ⟨ts, form.opening⟩ = .ok () ⟨[], b⟩)
    (hb : b.opened = form.opening.opened) :
    ∃ root, answer ((form.script statement >>= fun _ => takeTree) c ⟨ts, .empty⟩) = .ok root ∧
      form.statementsIn root = b.pending.toList.filterMap Element.node? := by
  obtain ⟨root, hroot, hstatements⟩ := exists_tree form hb c.stop.span.start
  refine ⟨root, ?_, hstatements⟩
  have hscript := script_eq form statement hend
  rw [bind_ok h] at hscript
  rw [bind_ok (hscript.trans (build_eq _))]
  exact takeTree_of_tree? heof hroot

end

def emptyStatement (form : ScriptForm ρ) (semicolon : Token) : Node ρ :=
  ⟨form.empty, semicolon.span, [.token semicolon]⟩

section

omit [DecidableEq ρ]

theorem pending_close (form : ScriptForm ρ) (unfinished : Bool) (semicolon : Token)
    (b : Builder ρ) :
    (form.close unfinished semicolon b).pending.toList.filterMap Element.node? =
      b.pending.toList.filterMap Element.node? ++
        if unfinished then [] else [form.emptyStatement semicolon] := by
  unfold close
  cases unfinished with
  | true => simp [Element.node?]
  | false =>
    have hopened : ((b.start form.empty).token semicolon).opened =
        (form.empty, b.pending.toList.length) :: b.opened := rfl
    have hpending : ((b.start form.empty).token semicolon).pending.toList =
        b.pending.toList ++ [.token semicolon] := by simp
    rw [if_neg (by decide), Builder.pending_finish hopened, hpending, List.take_left, List.drop_left]
    simp [Element.node?, emptyStatement, Builder.spanOf, Element.span]

theorem opened_close (form : ScriptForm ρ) (unfinished : Bool) (semicolon : Token)
    (b : Builder ρ) : (form.close unfinished semicolon b).opened = b.opened := by
  unfold close
  cases unfinished with
  | true => rfl
  | false => rfl

end

/-- The statements of two scripts that are joined are those of the first, an empty one if the first
needs no separator, and those of the second. -/
theorem exists_script_joined {c₁ c₂ : Setting} (h₁ : c₁.Like c') (h₂ : c₂.Like c')
    (hstatement : Joinable c'.dialect c'.limit statement) {semicolon : Token}
    (hsemicolon : semicolon.kind = .semicolon) (size : Nat) {ts us : List Token}
    (hclosed : Token.Closed ts) (hts : ∀ t ∈ ts, t.kind ≠ .eof) (hus : ∀ u ∈ us, u.kind ≠ .eof)
    {root₁ root₂ : Node ρ}
    (hroot₁ : answer ((form.script statement >>= fun _ => takeTree) c₁ ⟨ts, .empty⟩) = .ok root₁)
    (hroot₂ : answer ((form.script statement >>= fun _ => takeTree) c₂ ⟨us, .empty⟩) = .ok root₂) :
    ∃ root, answer ((form.script statement >>= fun _ => takeTree) c'
        ⟨ts ++ semicolon :: us.map (Token.relocate (Span.shift size)), .empty⟩) = .ok root ∧
      form.statementsIn root = form.statementsIn root₁ ++
        (if Token.unfinished ts then [] else [form.emptyStatement semicolon]) ++
        (form.statementsIn root₂).map (Node.relocate (Span.shift size)) := by
  have hstatement₁ : Joinable c₁.dialect c₁.limit statement := by
    rw [← h₁.dialect, ← h₁.limit]
    exact hstatement
  have hstatement₂ : Joinable c₂.dialect c₂.limit statement := by
    rw [← h₂.dialect, ← h₂.limit]
    exact hstatement
  obtain ⟨b₁, hb₁, hin₁⟩ := exists_entries_of_script hstatement₁ h₁.eof hts hroot₁
  obtain ⟨b₂, hb₂, hin₂⟩ := exists_entries_of_script hstatement₂ h₂.eof hus hroot₂
  obtain ⟨-, -, -, -, hopened₁, -⟩ := exists_entries_empty hstatement₁ h₁.eof hb₁
  have hjoined : form.entries statement c'
      ⟨ts ++ semicolon :: us.map (Token.relocate (Span.shift size)), form.opening⟩ =
      form.entries statement c' ⟨us.map (Token.relocate (Span.shift size)),
        form.close (Token.unfinished ts) semicolon b₁⟩ :=
    entries_joined h₁ hsemicolon (hstatement₁.respects _ rfl rfl h₁.limit)
      (hstatement₁.takes h₁.eof) (hstatement.takes h₁.eof') hclosed hts hb₁
  obtain ⟨⟨rest, b⟩, hb, hrest, hopened, hpending⟩ := exists_entries_above hstatement₂ h₂ hb₂ hus
    size ((opened_close form (Token.unfinished ts) semicolon b₁).trans hopened₁)
  have hrest : rest = [] := hrest
  subst hrest
  have hend : ¬(c'.ahead (ts ++ semicolon :: us.map (Token.relocate (Span.shift size)))).atEnd := by
    intro hend
    cases ts with
    | nil =>
      have hkind : semicolon.kind = .eof := TokenKind.eq_eof_of_alike hend
      rw [hsemicolon] at hkind
      contradiction
    | cons t ts => exact hts t (by simp) (TokenKind.eq_eof_of_alike hend)
  obtain ⟨root, hroot, hin⟩ := exists_script_of_entries h₁.eof' hend (hjoined.trans hb) hopened
  refine ⟨root, hroot, ?_⟩
  have hpending : b.pending.toList = (form.close (Token.unfinished ts) semicolon b₁).pending.toList ++
      b₂.pending.toList.map (Element.relocate (Span.shift size)) := hpending
  rw [hin, hpending, List.filterMap_append, pending_close, filterMap_node?_relocate, hin₁, hin₂]

end ScriptForm

end SqlScript
