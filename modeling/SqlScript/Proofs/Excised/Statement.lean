import SqlScript.Proofs.Excised.Tokens
import SqlScript.Proofs.Joined.Script
import SqlScript.Proofs.Shape.Forms

/-!
A statement on its own: what the grammar makes of its tokens depends neither on what is in front of
them nor on what follows.
-/

namespace SqlScript

open SqlScript.Simulation
open SqlScript.Tree
open Token (Closed Separated casesEnd)

variable {ρ : Type} {c c' : Setting} {behind : List Token}

/-! How groups are nested does not depend on where the tokens stand. -/

section

variable (f : Span → Span)

theorem Lookahead.closingEnd?_relocate (depth index : Nat) (ts : List Token) :
    closingEnd? depth index (ts.map (Token.relocate f)) = closingEnd? depth index ts := by
  induction ts generalizing depth index with
  | nil => rfl
  | cons t ts ih =>
    rw [List.map_cons]
    unfold closingEnd?
    simp only [Token.kind_relocate, ih]

namespace Token

@[simp]
theorem wellNested_relocate (closers : List TokenKind) (ts : List Token) :
    wellNested closers (ts.map (relocate f)) = wellNested closers ts := by
  induction ts generalizing closers with
  | nil => rfl
  | cons t ts ih =>
    rw [List.map_cons]
    unfold wellNested
    simp only [kind_relocate, ih]

theorem casesEnd_relocate (behind ts : List Token) :
    casesEnd (behind.map (relocate f)) (ts.map (relocate f)) = casesEnd behind ts := by
  induction ts with
  | nil => rfl
  | cons t ts ih =>
    have hlonger := Lookahead.closingEnd?_relocate f 0 0 (t :: ts ++ behind)
    have hshorter := Lookahead.closingEnd?_relocate f 0 0 (t :: ts)
    rw [List.map_append] at hlonger
    rw [List.map_cons] at hlonger hshorter ⊢
    unfold casesEnd
    rw [hlonger, hshorter, ih]
    rfl

theorem stopOf_relocate (size : Nat) (t : Token) (ts : List Token) :
    stopOf 0 ((t :: ts).map (relocate (Span.shift size))) = size + stopOf 0 (t :: ts) := by
  unfold stopOf
  rw [List.getLast?_map, List.getLast?_eq_some_getLast (List.cons_ne_nil t ts)]
  rfl

theorem relocate_shift_injective (size : Nat) :
    Function.Injective (relocate (Span.shift size)) := by
  rintro ⟨kind, start, stop⟩ ⟨kind', start', stop'⟩ h
  simpa [relocate, Span.shift] using h

end Token

end

theorem Alike.of_separated (h : Separated behind) (ts : List Token) : Alike ts (ts ++ behind) := by
  cases behind with
  | nil =>
    rw [List.append_nil]
    exact .refl ts
  | cons t us => exact .of_semicolon (h t us rfl) ts us

/--
The second run is on a text that goes on where the text of the first one ends, which closes all of
its groups.
-/
def Simulation.cut (ρ : Type) (h : c.Like c') (hbehind : Separated behind) : Simulation ρ where
  small := c
  large := c'
  rel s s' := s' = { s with rest := s.rest ++ behind } ∧ Closed s.rest ∧
    (c.dialect.flavor = .mySql → casesEnd behind s.rest)
  mark m m' := m' = m
  excused _ := False
  matched _ _ := True
  bound := some ⟨behind.length, fun _ h => h, fun _ => rfl⟩
  sees := by
    rintro s _ ⟨rfl, hs, -⟩
    refine ⟨h.dialect, Nat.le_of_eq h.limit.symm, h.eof, h.eof', .of_separated hbehind _,
      .inr hs, ?_⟩
    intro hlimit
    have hlimit : c.limit < c'.limit := hlimit
    rw [h.limit] at hlimit
    exact absurd hlimit (Nat.lt_irrefl _)
  advance := by
    rintro s _ ⟨rfl, hs, hcases⟩ hrest
    obtain ⟨t, ts, hts⟩ := List.exists_cons_of_ne_nil hrest
    rw [hts] at hs hcases
    unfold ParserState.advance
    simp only [hts, List.cons_append]
    exact ⟨trivial, hs.tail, fun hflavor => Token.casesEnd_drop (hcases hflavor) 1⟩
  start := by
    rintro s _ rule ⟨rfl, hs⟩
    exact ⟨rfl, hs⟩
  startAt := by
    rintro s _ m _ rule ⟨rfl, hs⟩ rfl
    exact ⟨rfl, hs⟩
  finish := by
    rintro s _ ⟨rfl, hs⟩ _
    exact ⟨rfl, hs⟩
  checkpoint := by
    rintro s _ ⟨rfl, -⟩
    rfl
  complain _ _ := .inr trivial
  lenient := by
    rintro s _ ⟨rfl, hs, hcases⟩
    exact .inr (.inr ⟨⟨_, rfl, List.length_append⟩, hs, fun h => ⟨behind, rfl, hcases h⟩⟩)
  tooDeep := h.tooDeep

/--
Two runs on the same tokens at other places, whatever was built before.
-/
def Simulation.moved (ρ : Type) {c c' : Setting} (h : c.Like c') (f : Span → Span) :
    Simulation ρ where
  small := c
  large := c'
  rel s s' := s'.rest = s.rest.map (Token.relocate f)
  mark _ _ := True
  excused _ := False
  matched _ _ := True
  sees := by
    rintro s ⟨_, b'⟩ rfl
    refine ⟨h.dialect, Nat.le_of_eq h.limit.symm, h.eof, h.eof', .map_relocate _ _, .inl ?_, ?_⟩
    · simp
    · simp
  advance := by
    rintro s s' hs _
    rw [ParserState.rest_advance, ParserState.rest_advance, hs, List.map_tail]
  start _ hs := hs
  startAt _ hs _ := hs
  finish hs _ := hs
  checkpoint _ := trivial
  complain _ _ := .inr trivial
  lenient hs := .inl (by rw [hs, List.length_map])
  tooDeep := h.tooDeep

theorem Simulation.Respects.moves {ρ α : Type} {c c' : Setting} {h : c.Like c'} {f : Span → Span}
    {need take : Nat} {p : Parser ρ α} (hp : (moved ρ h f).Respects need take p p)
    {s t : ParserState ρ} {a : α} (hok : p c s = .ok a t) (hneed : need ≤ reach s.rest)
    (s' : ParserState ρ) (hs : s'.rest = s.rest.map (Token.relocate f)) :
    ∃ t', p c' s' = .ok a t' ∧ t'.rest = t.rest.map (Token.relocate f) := by
  have hrel : (moved ρ h f).rel s s' := hs
  have houtcome := hp.run hrel hneed
  change Outcome _ _ (p c s) (p c' s') at houtcome
  rw [hok] at houtcome
  generalize hr : p c' s' = r at houtcome
  cases houtcome with
  | ok hafter => exact ⟨_, rfl, hafter.rel⟩
  | gone hgone => exact absurd hgone (Simulation.not_gone rfl)

theorem Simulation.Respects.moves_id {ρ α : Type} {c : Setting} (heof : c.stop.kind = .eof)
    {need take : Nat} {p : Parser ρ α} (hp : (moved ρ (.refl heof : c.Like c) id).Respects need take p p)
    {s t : ParserState ρ} {a : α} (hok : p c s = .ok a t) (hneed : need ≤ reach s.rest)
    (s' : ParserState ρ) (hs : s'.rest = s.rest) :
    ∃ t', p c s' = .ok a t' ∧ t'.rest = t.rest := by
  have hid : ∀ ts : List Token, ts.map (Token.relocate id) = ts := fun ts => List.map_id ts
  obtain ⟨t', ht', hrest⟩ := hp.moves hok hneed s' (hs.trans (hid s.rest).symm)
  exact ⟨t', ht', hrest.trans (hid _)⟩

theorem Simulation.Respects.keeps {ρ α : Type} {c : Setting} (heof : c.stop.kind = .eof)
    {inv : Invariant ρ} {need take : Nat} {p : Parser ρ α}
    (hp : (lockstep (.refl heof : c.Deepens c) inv).Respects need take p p) {s t : ParserState ρ}
    {a : α} (hneed : need ≤ reach s.rest) (hs : inv.holds s) (hok : p c s = .ok a t) :
    inv.holds t := by
  have hrel : (lockstep (.refl heof : c.Deepens c) inv).rel s s := ⟨rfl, hs⟩
  have houtcome := hp.run hrel hneed
  change Outcome _ _ (p c s) (p c s) at houtcome
  rw [hok] at houtcome
  cases houtcome with
  | ok hafter => exact hafter.rel.2
  | gone hgone => exact absurd hgone (Simulation.not_gone rfl)

namespace Parser.Joinable

variable {statement : Parser ρ Unit} (hstatement : Joinable c.dialect c.limit statement)
  (hlike : c.Like c')

include hstatement hlike

/-- A statement that closes all of its groups is read alike where the text ends with it. -/
theorem cut (hbehind : Separated behind) {ts : List Token} {b b' : Builder ρ}
    (h : statement c' ⟨ts ++ behind, b⟩ = .ok () ⟨behind, b'⟩) (hclosed : Closed ts)
    (hcases : c.dialect.flavor = .mySql → casesEnd behind ts) :
    statement c ⟨ts, b⟩ = .ok () ⟨[], b'⟩ := by
  have hrel : (Simulation.cut ρ hlike hbehind).rel ⟨ts, b⟩ ⟨ts ++ behind, b⟩ :=
    ⟨rfl, hclosed, hcases⟩
  have houtcome := hstatement.respects (Simulation.cut ρ hlike hbehind) rfl rfl hlike.limit hrel
    (Nat.zero_le _)
  change Outcome _ _ (statement c _) (statement c' _) at houtcome
  rw [h] at houtcome
  generalize statement c ⟨ts, b⟩ = r at houtcome
  cases houtcome with
  | @ok _ t _ hafter =>
    obtain ⟨hrest, -, -⟩ := hafter.rel
    obtain ⟨rest, builder⟩ := t
    cases List.append_left_eq_self.1 (congrArg ParserState.rest hrest).symm
    cases congrArg ParserState.builder hrest
    rfl
  | excused hexcused => exact hexcused.elim
  | gone hgone =>
    obtain ⟨n, hn, hgone⟩ := hgone
    cases hn
    exact absurd (hgone _ _ rfl) (Nat.lt_irrefl _)

theorem exists_dropped {form : ScriptForm ρ} {size : Nat} {t : Token} {ts rest : List Token}
    {b b' : Builder ρ}
    (h : statement c' ⟨(t :: ts).map (Token.relocate (Span.shift size)), b⟩ = .ok () ⟨rest, b'⟩)
    (hb : b.opened = form.opening.opened) :
    ∃ u, statement c ⟨t :: ts, .empty⟩ = .ok () u ∧
      rest = u.rest.map (Token.relocate (Span.shift size)) ∧ u.builder.opened = [] ∧
      b'.pending.toList =
        b.pending.toList ++ u.builder.pending.toList.map (Element.relocate (Span.shift size)) := by
  have hrel : (Simulation.second hlike size b.pending.toList [form.list, form.root]).rel
      ⟨t :: ts, .empty⟩
      ⟨(t :: ts).map (Token.relocate (Span.shift size)), b.setOffset size⟩ := by
    refine ⟨rfl, hb, ?_, rfl⟩
    simp [Builder.setOffset, Builder.empty]
  have houtcome := hstatement.respects _ rfl rfl hlike.limit hrel (Nat.zero_le _)
  change Outcome _ _ (statement c _) (statement c' _) at houtcome
  have hagree := hstatement.heedless (t.relocate (Span.shift size)) c'
    (ts.map (Token.relocate (Span.shift size))) b size
  rw [← List.map_cons, h] at hagree
  generalize statement c' ⟨(t :: ts).map (Token.relocate (Span.shift size)), b.setOffset size⟩ = r
    at hagree houtcome
  cases hagree
  generalize statement c ⟨t :: ts, .empty⟩ = r at houtcome
  cases houtcome with
  | @ok _ u _ hafter => exact ⟨u, rfl, hafter.rel.1, hafter.opened, hafter.rel.2.pending⟩
  | excused hexcused => exact hexcused.elim
  | gone hgone => exact absurd hgone (Simulation.not_gone rfl)

end Parser.Joinable

namespace Tree

variable {text : List Char}

mutual

theorem Node.leaf_within {t : Token} :
    ∀ {n : Node ρ}, (Element.node n).Laid text → t ∈ n.leaves → t.span.Within n.span
  | ⟨rule, span, children⟩, h, ht => by
    have hn := h.nodes rfl (.refl _)
    have hchildren : ∀ e ∈ children, e.Laid text := by
      intro e he
      cases e with
      | token u => exact .token (hn.children he)
      | node m => exact h.child (List.mem_filterMap.2 ⟨_, he, rfl⟩)
    obtain ⟨e, he, hwithin⟩ := leaf_within_child hchildren ht
    have hbounds := hn.row.bounds (List.mem_map_of_mem he)
    exact hwithin.trans ⟨hbounds.1, hbounds.2.2⟩

theorem leaf_within_child {t : Token} : ∀ {es : List (Element ρ)}, (∀ e ∈ es, e.Laid text) →
    t ∈ leaves es → ∃ e ∈ es, t.span.Within e.span
  | [], _, ht => nomatch ht
  | e :: es, h, ht => by
    rw [leaves, List.mem_append] at ht
    obtain ht | ht := ht
    · refine ⟨e, List.mem_cons_self, ?_⟩
      cases e with
      | token u =>
        rw [Element.leaves, List.mem_singleton] at ht
        rw [ht]
        exact .refl _
      | node n => exact Node.leaf_within (h _ List.mem_cons_self) ht
    · obtain ⟨e', he', hwithin⟩ :=
        leaf_within_child (fun e' he' => h e' (List.mem_cons_of_mem _ he')) ht
      exact ⟨e', List.mem_cons_of_mem _ he', hwithin⟩

end

end Tree

def Invariant.stops (ρ : Type) : Invariant ρ where
  holds s := s.builder.offset = Token.stopOf 0 (leaves s.builder.pending.toList)
  advance := by
    intro s _ hrest
    obtain ⟨t, ts, hts⟩ := List.exists_cons_of_ne_nil hrest
    unfold ParserState.advance Token.stopOf
    simp only [hts]
    rw [Builder.pending_token, Array.toList_push, leaves_append, leaves_token,
      List.getLast?_concat]
    rfl
  start _ h := h
  startAt _ _ h := h
  finish := by
    intro s h
    change s.builder.finish.offset = Token.stopOf 0 (leaves s.builder.finish.pending.toList)
    rw [Builder.offset_finish, Builder.leaves_finish]
    exact h

def Invariant.beyond (ρ : Type) (k start : Nat) : Invariant ρ where
  holds s := start ≤ s.builder.offset ∧ (∀ t ∈ s.rest, start ≤ t.span.start ∧ start ≤ t.span.stop) ∧
    ∀ e ∈ s.builder.pending.toList.drop k, start ≤ e.span.start
  advance := by
    rintro s ⟨-, hrest, hpending⟩ hne
    obtain ⟨t, ts, hts⟩ := List.exists_cons_of_ne_nil hne
    rw [hts] at hrest
    obtain ⟨ht, hrest⟩ := List.forall_mem_cons.1 hrest
    unfold ParserState.advance
    simp only [hts]
    refine ⟨ht.2, hrest, ?_⟩
    rw [Builder.pending_token, Array.toList_push, List.drop_append]
    intro e he
    rcases List.mem_append.1 he with he | he
    · exact hpending e he
    · rw [List.mem_singleton.1 (List.mem_of_mem_drop he)]
      exact ht.1
  start _ h := h
  startAt _ _ h := h
  finish := by
    rintro s ⟨hoffset, hrest, hpending⟩
    refine ⟨?_, hrest, ?_⟩
    · change start ≤ s.builder.finish.offset
      rw [Builder.offset_finish]
      exact hoffset
    · change ∀ e ∈ s.builder.finish.pending.toList.drop k, start ≤ e.span.start
      cases hopened : s.builder.opened with
      | nil =>
        have heq : s.builder.finish = s.builder := by
          unfold Builder.finish
          rw [hopened]
        rw [heq]
        exact hpending
      | cons top opened =>
        obtain ⟨rule, first⟩ := top
        rw [Builder.pending_finish hopened, List.drop_append]
        generalize s.builder.pending.toList = es at hpending
        intro e he
        rcases List.mem_append.1 he with he | he
        · rw [List.drop_take] at he
          exact hpending e (List.mem_of_mem_take he)
        · -- The production itself is behind `k` elements only if its children are.
          have hk : k ≤ first := by
            by_contra hk
            rw [List.length_take, List.drop_of_length_le] at he
            · contradiction
            · rw [List.length_singleton]
              omega
          rw [List.mem_singleton.1 (List.mem_of_mem_drop he)]
          change start ≤ (Builder.spanOf s.builder.offset (es.drop first)).start
          by_cases hes : es.drop first = []
          · rw [hes]
            exact hoffset
          · obtain ⟨e, last, he, -, hspan⟩ := Builder.exists_spanOf s.builder.offset hes
            rw [hspan]
            apply hpending
            have hdrop : es.drop first = (es.drop k).drop (first - k) := by
              rw [List.drop_drop, Nat.add_sub_cancel' hk]
            rw [hdrop] at he
            exact List.mem_of_mem_drop (List.mem_of_mem_head? he)

theorem ParserState.Laid.scan (d : Dialect) (text : List Char) :
    (⟨Token.scan d 0 none text, .empty⟩ : ParserState ρ).Laid text (Token.scan d 0 none text) := by
  obtain ⟨hrow, hon⟩ := Token.scan_spans (d := d) (List.nil_append text).symm none
  exact ⟨.empty _, rfl, hrow, fun {t} ht => hon t ht⟩

namespace Parser.Joinable

variable {statement : Parser ρ Unit} (hstatement : Joinable c.dialect c.limit statement)
  (heof : c.stop.kind = .eof)

include hstatement heof

theorem keeps (inv : Invariant ρ) {s t : ParserState ρ} (hs : inv.holds s)
    (h : statement c s = .ok () t) : inv.holds t :=
  (hstatement.respects (lockstep (.refl heof) inv) rfl rfl rfl).keeps heof (Nat.zero_le _) hs h

/-- A production that is added on its own lies from the start of its first token to the end of its
last one, wherever the token in front of it ended. -/
theorem span_of_pending {text : List Char} {tokens : List Token} {t : Token} {ts : List Token}
    {b : Builder ρ} {u : ParserState ρ} {n : Node ρ}
    (hlaid : (⟨t :: ts, b⟩ : ParserState ρ).Laid text tokens)
    (hoffset : b.offset = Token.stopOf 0 (leaves b.pending.toList))
    (h : statement c ⟨t :: ts, b⟩ = .ok () u)
    (hpending : u.builder.pending.toList = b.pending.toList ++ [.node n]) :
    n.span = ⟨t.span.start, u.builder.offset⟩ := by
  have hleaves : n.leaves ++ u.rest = t :: ts := by
    have hleaves := ((hstatement.keeps heof (.laid text tokens) hlaid h).leaves).trans
      hlaid.leaves.symm
    rw [hpending, leaves_append, leaves_node, ← Node.leaves_eq, List.append_assoc] at hleaves
    exact List.append_cancel_left hleaves
  obtain ⟨us, hus⟩ : ∃ us, n.leaves = t :: us := by
    have htakes := hstatement.takes heof h
    cases hn : n.leaves with
    | nil =>
      rw [hn, List.nil_append] at hleaves
      rw [hleaves] at htakes
      exact absurd htakes (Nat.lt_irrefl _)
    | cons a us =>
      rw [hn] at hleaves
      exact ⟨us, by rw [(List.cons.inj hleaves).1]⟩
  have hon : t.span.On text := hlaid.rest List.mem_cons_self
  -- Where the token in front ended makes no difference: it may have been where the first token starts.
  have h' : statement c ⟨t :: ts, b.setOffset t.span.start⟩ = .ok () u := by
    have hagree := hstatement.heedless t c ts b t.span.start
    rw [h] at hagree
    generalize statement c ⟨t :: ts, b.setOffset t.span.start⟩ = r at hagree ⊢
    cases hagree
    rfl
  have hlaid' : (⟨t :: ts, b.setOffset t.span.start⟩ : ParserState ρ).Laid text tokens :=
    ⟨hlaid.builder.setOffset hon.1 hlaid.row.1, hlaid.leaves, ⟨Nat.le_refl _, hlaid.row.2⟩,
      hlaid.rest⟩
  have hbeyond : (Invariant.beyond ρ b.pending.toList.length t.span.start).holds
      ⟨t :: ts, b.setOffset t.span.start⟩ := by
    refine ⟨Nat.le_refl _, ?_, ?_⟩
    · intro u hu
      have hbounds := hlaid'.row.bounds (List.mem_map_of_mem hu)
      exact ⟨hbounds.1, Nat.le_trans hbounds.1 hbounds.2.1⟩
    · change ∀ e ∈ b.pending.toList.drop b.pending.toList.length, _
      rw [List.drop_length]
      exact nofun
  have hbuilt := hstatement.keeps heof (.laid text tokens) hlaid' h'
  have hn : (Element.node n).Laid text := by
    apply hbuilt.builder.elements
    rw [hpending]
    exact List.mem_append_right _ (List.mem_singleton_self _)
  have hstart : n.span.start = t.span.start := by
    apply Nat.le_antisymm
    · exact (Node.leaf_within hn (hus ▸ List.mem_cons_self)).1
    · apply (hstatement.keeps heof (.beyond ρ b.pending.toList.length t.span.start) hbeyond h').2.2
        (.node n)
      rw [hpending, List.drop_left]
      exact List.mem_singleton_self _
  have hstop : n.span.stop = u.builder.offset := by
    have hlast : u.builder.offset = Token.stopOf 0 (leaves u.builder.pending.toList) :=
      hstatement.keeps heof (.stops ρ) (s := ⟨t :: ts, b⟩) hoffset h
    apply Nat.le_antisymm
    · have hrow := hbuilt.builder.row
      have hmem : Element.node n ∈ u.builder.pending.toList := by simp [hpending]
      exact (hrow.bounds (List.mem_map_of_mem (f := Element.span) hmem)).2.2
    · rw [hlast, hpending, leaves_append, leaves_node, ← Node.leaves_eq, hus]
      unfold Token.stopOf
      rw [List.getLast?_append, List.getLast?_eq_some_getLast (List.cons_ne_nil t us)]
      apply (Node.leaf_within hn _).2
      rw [hus]
      exact List.getLast_mem _
  rw [← hstart, ← hstop]

theorem span_eq {cs : List Char} {t : Token} {us vs : List Token} {b : Builder ρ} {n : Node ρ}
    (hscan : Token.scan c.dialect 0 none cs = t :: us ++ vs)
    (h : statement c ⟨t :: us ++ vs, .empty⟩ = .ok () ⟨vs, b⟩)
    (hpending : b.pending.toList = [.node n]) (hstart : t.span.start = 0) :
    n.span = ⟨0, Token.stopOf 0 (t :: us)⟩ := by
  have hlaid : (⟨t :: us ++ vs, .empty⟩ : ParserState ρ).Laid cs (t :: us ++ vs) := by
    rw [← hscan]
    exact .scan _ _
  have hoffset : b.offset = Token.stopOf 0 (leaves b.pending.toList) :=
    hstatement.keeps heof (.stops ρ) (s := ⟨t :: us ++ vs, .empty⟩) rfl h
  have hleaves : leaves b.pending.toList = t :: us :=
    List.append_cancel_right (hstatement.keeps heof (.laid cs (t :: us ++ vs)) hlaid h).leaves
  rw [hstatement.span_of_pending heof hlaid rfl h hpending, hstart]
  change (⟨0, b.offset⟩ : Span) = _
  rw [hoffset, hleaves]

end Parser.Joinable

/--
On the way from a state the parser is run on the tokens `ts`, and adds one production for those in front
of `us`.
-/
def Makes {ρ : Type} (c : Setting) (p : Parser ρ Unit) (s : ParserState ρ) (ts us : List Token)
    (n : Node ρ) : Prop :=
  ∃ u v, (∀ inv : Invariant ρ, inv.holds s → inv.holds u) ∧ u.rest = ts ∧ p c u = .ok () v ∧
    v.rest = us ∧ v.builder.pending.toList = u.builder.pending.toList ++ [.node n]

namespace Makes

variable {p : Parser ρ Unit} {s s' : ParserState ρ} {ts us : List Token} {n : Node ρ}

theorem here {v : ParserState ρ} (hs : s.rest = ts) (h : p c s = .ok () v)
    (hpending : v.builder.pending.toList = s.builder.pending.toList ++ [.node n]) :
    Makes c p s ts v.rest n :=
  ⟨s, v, fun _ hinv => hinv, hs, h, rfl, hpending⟩

theorem after (hkeeps : ∀ inv : Invariant ρ, inv.holds s → inv.holds s')
    (h : Makes c p s' ts us n) : Makes c p s ts us n := by
  obtain ⟨u, v, hafter, hrun⟩ := h
  exact ⟨u, v, fun inv hinv => hafter inv (hkeeps inv hinv), hrun⟩

theorem start {rule : ρ} (h : Makes c p (s.build (·.start rule)) ts us n) : Makes c p s ts us n :=
  h.after fun inv hinv => inv.start rule hinv

theorem advance {x : Token} {xs : List Token} (hs : s.rest = x :: xs)
    (h : Makes c p s.advance ts us n) : Makes c p s ts us n :=
  h.after fun inv hinv => inv.advance hinv (hs ▸ List.cons_ne_nil x xs)

theorem exists_span {t : Token} (h : Makes c p s (t :: ts) us n)
    (hp : Parser.Joinable c.dialect c.limit p) (heof : c.stop.kind = .eof) {text : List Char}
    (hlaid : s.Laid text s.rest) (hs : (Invariant.stops ρ).holds s) :
    ∃ stop, n.span = ⟨t.span.start, stop⟩ ∧ us <:+ s.rest ∧
      Span.Row stop (us.map Token.span) (Token.byteLength text) ∧
      (us = [] → stop = Token.stopOf 0 s.rest) := by
  obtain ⟨⟨_, b⟩, v, hkeeps, rfl, hrun, rfl, hpending⟩ := h
  have hbefore := hkeeps (.laid text s.rest) hlaid
  have hafter := hp.keeps heof (.laid text s.rest) hbefore hrun
  have hoffset := hp.keeps heof (.stops ρ) (hkeeps (.stops ρ) hs) hrun
  refine ⟨v.builder.offset, ?_, ⟨_, hafter.leaves⟩, hafter.row, ?_⟩
  · exact hp.span_of_pending heof hbefore (hkeeps (.stops ρ) hs) hrun hpending
  · intro hv
    have hleaves := hafter.leaves
    rw [hv, List.append_nil] at hleaves
    rw [← hleaves]
    exact hoffset

end Makes

end SqlScript
