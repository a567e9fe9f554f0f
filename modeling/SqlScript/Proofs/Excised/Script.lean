import SqlScript.Proofs.Excised.Statement
import SqlScript.Proofs.Joined.Statements

/-!
The statements of a script, each with the tokens that it was made of.
-/

namespace SqlScript

open SqlScript.Tree
open Token (Closed Separated casesEnd)

variable {ρ : Type} {c c' : Setting}

/--
A parser of statements that adds one production for each, and of which none starts with a point.
-/
structure Parser.Excisable (dialect : Dialect) (limit : Nat) (statement : Parser ρ Unit) : Prop
    extends Joinable dialect limit statement where
  single {c : Setting} {s t : ParserState ρ} : c.dialect = dialect → c.limit = limit →
    c.stop.kind = .eof → s.builder.Sound → statement c s = .ok () t → ∃ n, Grows s t [.node n]
  not_dot {c : Setting} {t : Token} {ts : List Token} {b : Builder ρ} {u : ParserState ρ} :
    t.kind = .dot → statement c ⟨t :: ts, b⟩ ≠ .ok () u

namespace ScriptForm

open SqlScript.Parser

/--
How a statement of a script stands among its tokens: as a semicolon on its own, or with the tokens
that the parser of statements took for it.
-/
inductive Stands (form : ScriptForm ρ) (statement : Parser ρ Unit) (c : Setting) :
    List Token → Node ρ → Prop
  | empty {pre post : List Token} {semicolon : Token} (h : semicolon.kind = .semicolon) :
    Stands form statement c (pre ++ semicolon :: post) (form.emptyStatement semicolon)
  | statement {pre us post : List Token} {t : Token} {n : Node ρ} {b b' : Builder ρ}
      (ht : t.kind ≠ .semicolon) (hpost : Separated post)
      (hb : b.opened = form.opening.opened)
      (h : statement c ⟨t :: us ++ post, b⟩ = .ok () ⟨post, b'⟩)
      (hpending : b'.pending.toList = b.pending.toList ++ [.node n]) :
    Stands form statement c (pre ++ (t :: us ++ post)) n

variable {form : ScriptForm ρ} {statement : Parser ρ Unit}

theorem Stands.append {ts : List Token} {n : Node ρ} (h : form.Stands statement c ts n)
    (pre : List Token) : form.Stands statement c (pre ++ ts) n := by
  cases h with
  | empty h =>
    rw [← List.append_assoc]
    exact .empty h
  | statement ht hpost hb h hpending =>
    rw [← List.append_assoc]
    exact .statement ht hpost hb h hpending

theorem sound_of_opening {b : Builder ρ} (hb : b.opened = form.opening.opened) : b.Sound := by
  unfold Builder.Sound Builder.floor
  rw [hb]
  exact Nat.zero_le _

theorem laid_opening (form : ScriptForm ρ) (d : Dialect) (text : List Char) :
    (⟨Token.scan d 0 none text, form.opening⟩ : ParserState ρ).Laid text
      (Token.scan d 0 none text) :=
  let laid := Invariant.laid text (Token.scan d 0 none text)
  laid.start form.list (laid.start form.root (.scan d text))

section

variable (hstatement : Excisable c.dialect c.limit statement) (heof : c.stop.kind = .eof)

include hstatement heof

theorem exists_statement_of_entry {t : Token} {ts us : List Token} {b b' : Builder ρ}
    (hts : ∀ u ∈ t :: ts, u.kind ≠ .eof) (hb : b.opened = form.opening.opened)
    (ht : t.kind ≠ .semicolon) (h : form.entry statement c ⟨t :: ts, b⟩ = .ok () ⟨us, b'⟩) :
    ∃ v n, statement c ⟨t :: ts, b⟩ = .ok () v ∧ Grows ⟨t :: ts, b⟩ v [.node n] ∧
      Separated v.rest ∧ b'.opened = b.opened ∧
      b'.pending.toList.filterMap Element.node? =
        b.pending.toList.filterMap Element.node? ++ [n] ∧
      ∃ taken, v.rest = taken ++ us := by
  have hkind : ¬(c.ahead (t :: ts)).isKind 0 .semicolon :=
    fun hkind => ht (TokenKind.eq_semicolon_of_alike hkind)
  rw [entry_eq, if_neg hkind] at h
  obtain ⟨_, v, hv, -⟩ := bind_eq_ok h
  obtain ⟨n, hgrows⟩ := hstatement.single rfl rfl heof (sound_of_opening hb) hv
  have hnodes : v.builder.pending.toList.filterMap Element.node? =
      b.pending.toList.filterMap Element.node? ++ [n] := by
    rw [hgrows.pending, List.filterMap_append]
    rfl
  have hrest : t :: ts = leaves [.node n] ++ v.rest := hgrows.rest
  refine ⟨v, n, hv, hgrows, ?_⟩
  obtain ⟨vs, vbuilder⟩ := v
  rw [separated_ok hv] at h
  split at h
  · rename_i hsemicolon
    obtain ⟨x, xs, rfl, hx⟩ := exists_semicolon heof hsemicolon
    cases h
    refine ⟨?_, hgrows.opened, ?_, [x], rfl⟩
    · rintro _ _ ⟨⟩
      exact hx
    · rw [Builder.pending_token, Array.toList_push, List.filterMap_append, hnodes]
      exact List.append_nil _
  split at h
  · rename_i hend
    have hvs : vs = [] := by
      apply rest_eq_nil_of_atEnd hend
      intro x hx
      apply hts
      rw [hrest]
      exact List.mem_append_right _ hx
    cases h
    subst hvs
    exact ⟨nofun, hgrows.opened, hnodes, [], rfl⟩
  · contradiction

theorem exists_stands_entry {t : Token} {ts us : List Token} {b b' : Builder ρ}
    (hts : ∀ u ∈ t :: ts, u.kind ≠ .eof) (hb : b.opened = form.opening.opened)
    (h : form.entry statement c ⟨t :: ts, b⟩ = .ok () ⟨us, b'⟩) :
    ∃ n, form.Stands statement c (t :: ts) n ∧ b'.opened = b.opened ∧
      b'.pending.toList.filterMap Element.node? =
        b.pending.toList.filterMap Element.node? ++ [n] ∧
      ∃ taken, t :: ts = taken ++ us := by
  by_cases ht : t.kind = .semicolon
  · have hkind : (c.ahead (t :: ts)).isKind 0 .semicolon := by
      change t.kind.alike .semicolon
      rw [ht]
      rfl
    rw [entry_eq, if_pos hkind] at h
    cases h
    have hstands : form.Stands statement c ([] ++ t :: ts) (form.emptyStatement t) := .empty ht
    exact ⟨form.emptyStatement t, hstands, opened_close form false t b,
      pending_close form false t b, [t], rfl⟩
  · obtain ⟨v, n, hv, hgrows, hpost, hopened, hnodes, taken, htaken⟩ :=
      exists_statement_of_entry hstatement heof hts hb ht h
    have htakes := hstatement.takes heof hv
    have hrest : t :: ts = n.leaves ++ v.rest := by
      have hrest := hgrows.rest
      rw [leaves_node, ← Node.leaves_eq] at hrest
      exact hrest
    obtain ⟨ws, hleaves⟩ : ∃ ws, n.leaves = t :: ws := by
      cases hn : n.leaves with
      | nil =>
        rw [hn, List.nil_append] at hrest
        rw [← hrest] at htakes
        exact absurd htakes (Nat.not_succ_le_self _)
      | cons w ws =>
        rw [hn] at hrest
        exact ⟨ws, by rw [(List.cons.inj hrest).1]⟩
    rw [hleaves] at hrest
    refine ⟨n, ?_, hopened, hnodes, t :: ws ++ taken, ?_⟩
    · obtain ⟨vs, vbuilder⟩ := v
      rw [hrest] at hv
      rw [hrest, ← List.nil_append (t :: ws ++ vs)]
      exact .statement ht hpost hb hv hgrows.pending
    · rw [hrest, htaken, List.append_assoc]

theorem exists_stands {ts : List Token} {b b' : Builder ρ} (hts : ∀ t ∈ ts, t.kind ≠ .eof)
    (hb : b.opened = form.opening.opened)
    (h : form.entries statement c ⟨ts, b⟩ = .ok () ⟨[], b'⟩) :
    ∃ ns, b'.pending.toList.filterMap Element.node? =
        b.pending.toList.filterMap Element.node? ++ ns ∧
      ∀ n ∈ ns, form.Stands statement c ts n := by
  have htakes := hstatement.takes heof
  induction hlen : ts.length using Nat.strongRecOn generalizing ts b with
  | ind m ih =>
  cases ts with
  | nil =>
    rw [entries_nil heof htakes] at h
    cases h
    exact ⟨[], (List.append_nil _).symm, nofun⟩
  | cons t ts =>
    have hend : ¬(c.ahead (t :: ts)).atEnd :=
      fun hend => hts t List.mem_cons_self (TokenKind.eq_eof_of_alike hend)
    rw [entries_eq heof htakes, if_neg hend] at h
    obtain ⟨_, ⟨us, b₁⟩, hentry, h⟩ := bind_eq_ok h
    have hlt : us.length < m := by
      rw [← hlen]
      exact entry_takes heof htakes hentry
    obtain ⟨n, hn, hopened, hnodes, taken, htaken⟩ :=
      exists_stands_entry hstatement heof hts hb hentry
    have hus : ∀ u ∈ us, u.kind ≠ .eof := by
      intro u hu
      apply hts
      rw [htaken]
      exact List.mem_append_right _ hu
    obtain ⟨ns, hpending, hns⟩ := ih _ hlt hus (hopened.trans hb) h rfl
    refine ⟨n :: ns, ?_, List.forall_mem_cons.2 ⟨hn, fun n' hn' => ?_⟩⟩
    · rw [hpending, hnodes, List.append_assoc]
      rfl
    · rw [htaken]
      exact (hns n' hn').append taken

theorem exists_first_of_entries {t : Token} {ts : List Token} {b b' : Builder ρ}
    (hts : ∀ u ∈ t :: ts, u.kind ≠ .eof) (hb : b.opened = form.opening.opened)
    (ht : t.kind ≠ .semicolon) (h : form.entries statement c ⟨t :: ts, b⟩ = .ok () ⟨[], b'⟩) :
    ∃ v n ns, statement c ⟨t :: ts, b⟩ = .ok () v ∧ Grows ⟨t :: ts, b⟩ v [.node n] ∧
      b'.pending.toList.filterMap Element.node? =
        b.pending.toList.filterMap Element.node? ++ n :: ns := by
  have htakes := hstatement.takes heof
  have hend : ¬(c.ahead (t :: ts)).atEnd :=
    fun hend => hts t List.mem_cons_self (TokenKind.eq_eof_of_alike hend)
  rw [entries_eq heof htakes, if_neg hend] at h
  obtain ⟨_, ⟨us, b₁⟩, hentry, h⟩ := bind_eq_ok h
  obtain ⟨v, n, hv, hgrows, -, hopened, hnodes, taken, htaken⟩ :=
    exists_statement_of_entry hstatement heof hts hb ht hentry
  have hus : ∀ u ∈ us, u.kind ≠ .eof := by
    intro u hu
    apply hts
    have hrest : t :: ts = leaves [.node n] ++ v.rest := hgrows.rest
    rw [hrest, htaken]
    exact List.mem_append_right _ (List.mem_append_right _ hu)
  obtain ⟨ns, hpending, -⟩ := exists_stands hstatement heof hus (hopened.trans hb) h
  refine ⟨v, n, ns, hv, hgrows, ?_⟩
  rw [hpending, hnodes, List.append_assoc]
  rfl

omit hstatement heof in
theorem statement_opening (form : ScriptForm ρ) (hstatement : Joinable c.dialect c.limit statement)
    (heof : c.stop.kind = .eof) {ts : List Token} {u : ParserState ρ}
    (h : statement c ⟨ts, .empty⟩ = .ok () u) :
    ∃ v, statement c ⟨ts, form.opening⟩ = .ok () v ∧ v.rest = u.rest ∧
      v.builder.opened = form.opening.opened ∧
      v.builder.pending.toList = u.builder.pending.toList := by
  have hzero : ∀ ts : List Token, ts.map (Token.relocate (Span.shift 0)) = ts := by
    intro ts
    apply List.map_id''
    simp [Token.relocate]
  have hrel : (Simulation.second (.refl heof) 0 [] [form.list, form.root]).rel ⟨ts, .empty⟩
      ⟨ts, form.opening⟩ :=
    ⟨(hzero ts).symm, rfl, rfl, rfl⟩
  have houtcome := hstatement.respects _ rfl rfl rfl hrel (Nat.zero_le _)
  change Simulation.Outcome _ _ (statement c _) (statement c _) at houtcome
  rw [h] at houtcome
  generalize statement c ⟨ts, form.opening⟩ = r at houtcome
  cases houtcome with
  | @ok _ _ v hafter =>
    obtain ⟨hrest, habove⟩ := hafter.rel
    have hopened : u.builder.opened = [] := hafter.opened
    refine ⟨v, rfl, hrest.trans (hzero _), ?_, ?_⟩
    · rw [habove.opened, hopened]
      rfl
    · rw [habove.pending, List.nil_append]
      exact List.map_id'' (Element.relocate_eq_self Span.shift_zero) _
  | gone hgone => exact absurd hgone (Simulation.not_gone rfl)

omit hstatement in
theorem entries_of_statement (htakes : Takes c statement) {t : Token} {ts : List Token}
    (ht : t.kind ≠ .semicolon) (hend : t.kind ≠ .eof) {b b' : Builder ρ}
    (h : statement c ⟨t :: ts, b⟩ = .ok () ⟨[], b'⟩) :
    form.entries statement c ⟨t :: ts, b⟩ = .ok () ⟨[], b'⟩ := by
  have hend : ¬(c.ahead (t :: ts)).atEnd := fun h => hend (TokenKind.eq_eof_of_alike h)
  have hkind : ¬(c.ahead (t :: ts)).isKind 0 .semicolon :=
    fun h => ht (TokenKind.eq_semicolon_of_alike h)
  have hkind' : ¬(c.ahead []).isKind 0 .semicolon := by
    intro hkind
    obtain ⟨_, _, hnil, -⟩ := exists_semicolon heof hkind
    contradiction
  have hentry : form.entry statement c ⟨t :: ts, b⟩ = .ok () ⟨[], b'⟩ := by
    rw [entry_eq, if_neg hkind, separated_ok h, if_neg hkind', if_pos (Setting.atEnd_nil heof)]
  rw [entries_eq heof htakes, if_neg hend, bind_ok hentry, entries_nil heof htakes]

theorem entries_of_semicolon {t : Token} (ht : t.kind = .semicolon) (b : Builder ρ) :
    form.entries statement c ⟨[t], b⟩ = .ok () ⟨[], form.close false t b⟩ := by
  have htakes := hstatement.takes heof
  have hend : ¬(c.ahead [t]).atEnd := by
    intro h
    have heof : t.kind = .eof := TokenKind.eq_eof_of_alike h
    rw [ht] at heof
    contradiction
  have hkind : (c.ahead [t]).isKind 0 .semicolon := by
    change t.kind.alike .semicolon
    rw [ht]
    rfl
  have hentry : form.entry statement c ⟨[t], b⟩ = .ok () ⟨[], form.close false t b⟩ := by
    rw [entry_eq, if_pos hkind]
    rfl
  rw [entries_eq heof htakes, if_neg hend, bind_ok hentry, entries_nil heof htakes]

end

section

variable [DecidableEq ρ] {flavor : Flavor} {options : Options} {source : String}

theorem exists_first_of_parseTree (hstatement : Excisable (.ofFlavor flavor) options.maxDepth statement)
    {tree : SyntaxTree ρ}
    (htree : parseTree (form.script statement) (.ofFlavor flavor) source options = .ok tree)
    {t : Token} {ts : List Token}
    (hscan : Token.scan (.ofFlavor flavor) 0 none source.toList = t :: ts)
    (ht : t.kind ≠ .semicolon) :
    (∀ u ∈ t :: ts, u.kind.isValid) ∧
      ∃ v n, statement (settingFor (.ofFlavor flavor) options source) ⟨t :: ts, form.opening⟩ =
          .ok () v ∧
        Grows ⟨t :: ts, form.opening⟩ v [.node n] ∧
        (form.statementsIn tree.root).head? = some n := by
  obtain ⟨hvalid, hrun⟩ := run_eq_ok.1 (parseTree_eq_ok.1 htree).1
  have hts : ∀ u ∈ (Token.tokenize (.ofFlavor flavor) source).dropLast, u.kind ≠ .eof :=
    fun _ => Token.kind_ne_eof
  obtain ⟨b, hentries, hin⟩ := exists_entries_of_script hstatement.toJoinable rfl hts hrun
  rw [Token.dropLast_tokenize, hscan] at hvalid hts hentries
  obtain ⟨v, n, ns, hv, hgrows, hnodes⟩ :=
    exists_first_of_entries hstatement rfl hts rfl ht hentries
  refine ⟨hvalid, v, n, hv, hgrows, ?_⟩
  rw [hin, hnodes]
  rfl

theorem exists_parseTree_of_entries {inside : List Char} {t : Token} {ts : List Token}
    {b : Builder ρ} (hscan : Token.scan (.ofFlavor flavor) 0 none inside = t :: ts)
    (hvalid : ∀ u ∈ t :: ts, u.kind.isValid)
    (hb : b.opened = form.opening.opened)
    (h : form.entries statement (settingFor (.ofFlavor flavor) options (String.ofList inside))
      ⟨t :: ts, form.opening⟩ = .ok () ⟨[], b⟩) :
    ∃ tree, parseTree (form.script statement) (.ofFlavor flavor) (String.ofList inside) options =
        .ok tree ∧
      form.statementsIn tree.root = b.pending.toList.filterMap Element.node? := by
  have htokens : (Token.tokenize (.ofFlavor flavor) (String.ofList inside)).dropLast = t :: ts := by
    rw [Token.dropLast_tokenize, String.toList_ofList, hscan]
  have hend : ¬((settingFor (.ofFlavor flavor) options (String.ofList inside)).ahead
      (t :: ts)).atEnd := by
    intro hend
    have hne := Token.kind_ne_eof (t := t) (by rw [htokens]; exact List.mem_cons_self)
    exact hne (TokenKind.eq_eof_of_alike hend)
  obtain ⟨root, hroot, hin⟩ := exists_script_of_entries rfl hend h hb
  rw [← htokens] at hvalid hroot
  exact ⟨⟨root, _⟩, parseTree_eq_ok.2 ⟨run_eq_ok.2 ⟨hvalid, hroot⟩, rfl⟩, hin⟩

theorem exists_parseTree_of_statement
    (hstatement : Excisable (.ofFlavor flavor) options.maxDepth statement) {t : Token}
    {ts : List Token} {u : ParserState ρ} {n : Node ρ}
    (hscan : Token.scan (.ofFlavor flavor) 0 none source.toList = t :: ts)
    (hvalid : ∀ u ∈ t :: ts, u.kind.isValid) (ht : t.kind ≠ .semicolon)
    (h : statement (settingFor (.ofFlavor flavor) options source) ⟨t :: ts, form.opening⟩ = .ok () u)
    (hrest : u.rest = []) (hgrows : Grows ⟨t :: ts, form.opening⟩ u [.node n]) :
    ∃ tree, parseTree (form.script statement) (.ofFlavor flavor) source options = .ok tree ∧
      form.statementsIn tree.root = [n] := by
  obtain ⟨_, b⟩ := u
  obtain rfl : _ = [] := hrest
  have hend : t.kind ≠ .eof := by
    apply Token.scan_ne_eof 0 none source.toList
    rw [hscan]
    exact List.mem_cons_self
  have hentries : form.entries statement (settingFor (.ofFlavor flavor) options source)
      ⟨t :: ts, form.opening⟩ = .ok () ⟨[], b⟩ :=
    entries_of_statement rfl (hstatement.takes rfl) ht hend h
  rw [← source.ofList_toList] at hentries
  obtain ⟨tree, htree, hin⟩ := exists_parseTree_of_entries hscan hvalid hgrows.opened hentries
  rw [source.ofList_toList] at htree
  refine ⟨tree, htree, ?_⟩
  rw [hin, hgrows.pending]
  rfl

/--
The text of a production of a script, which is its own text: what the grammar makes of it is the
same production, at the start of a text.
-/
def Excised (form : ScriptForm ρ) (statement : Parser ρ Unit) (flavor : Flavor) (options : Options)
    (source : String) (n : Node ρ) : Prop :=
  ∃ before inside after, source.toList = before ++ inside ++ after ∧
    n.span = ⟨Token.byteLength before, Token.byteLength (before ++ inside)⟩ ∧
    ∃ tree m, parseTree (form.script statement) (.ofFlavor flavor) (String.ofList inside) options =
        .ok tree ∧
      form.statementsIn tree.root = [m] ∧ m.relocate (Span.shift (Token.byteLength before)) = n

theorem excised_empty (hstatement : Excisable (.ofFlavor flavor) options.maxDepth statement)
    (hvalid : ∀ t ∈ Token.scan (.ofFlavor flavor) 0 none source.toList, t.kind.isValid)
    {pre post : List Token} {semicolon : Token}
    (htokens : Token.scan (.ofFlavor flavor) 0 none source.toList = pre ++ semicolon :: post)
    (hkind : semicolon.kind = .semicolon) :
    form.Excised statement flavor options source (form.emptyStatement semicolon) := by
  have hpre : ∀ t ∈ pre, t.kind.isValid := by
    rw [htokens] at hvalid
    exact fun t ht => hvalid t (List.mem_append_left _ ht)
  have hdot : semicolon.kind ≠ .dot := by
    rw [hkind]
    nofun
  obtain ⟨before, rest, hsource, hstart, hrest⟩ := Token.exists_cut_front htokens hpre hdot
  obtain ⟨t, ts, hscan, ht, -⟩ := List.map_eq_cons_iff.1 hrest.symm
  have htkind : t.kind = .semicolon := by
    rw [← ht] at hkind
    exact hkind
  have htstart : t.span.start = 0 := by
    rw [← ht] at hstart
    exact Nat.add_eq_left.1 hstart
  obtain ⟨after, rfl, rfl⟩ := Token.exists_of_semicolon hscan htkind htstart
  have hone : Token.scan (.ofFlavor flavor) 0 none [';'] = [⟨.semicolon, 0, 1⟩] := by
    rw [Token.scan_semicolon]
    exact congrArg _ (Token.scan_nil List.drop_nil)
  have hentries : form.entries statement
      (settingFor (.ofFlavor flavor) options (String.ofList [';']))
      ⟨[⟨.semicolon, 0, 1⟩], form.opening⟩ =
        .ok () ⟨[], form.close false ⟨.semicolon, 0, 1⟩ form.opening⟩ :=
    entries_of_semicolon hstatement rfl rfl form.opening
  obtain ⟨tree, htree, hin⟩ := exists_parseTree_of_entries hone
    (List.forall_mem_singleton.2 rfl) (opened_close form false _ _) hentries
  refine ⟨before, [';'], after, by simp [hsource], ?_, tree,
    form.emptyStatement ⟨.semicolon, 0, 1⟩, htree, hin.trans ?_, ?_⟩
  · rw [Token.byteLength_append, ← ht]
    rfl
  · rw [pending_close]
    rfl
  · rw [← ht]
    unfold emptyStatement
    simp [Node.relocate, relocateAll, Token.relocate]

section

variable (hstatement : Excisable (.ofFlavor flavor) options.maxDepth statement)
  (hvalid : ∀ t ∈ Token.scan (.ofFlavor flavor) 0 none source.toList, t.kind.isValid)
  {pre us post : List Token} {t : Token} {n : Node ρ} {b b' : Builder ρ}
  (htokens : Token.scan (.ofFlavor flavor) 0 none source.toList = pre ++ (t :: us ++ post))
  (hb : b.opened = form.opening.opened)
  (h : statement (settingFor (.ofFlavor flavor) options source) ⟨t :: us ++ post, b⟩ =
    .ok () ⟨post, b'⟩)
  (hpending : b'.pending.toList = b.pending.toList ++ [.node n])

include hstatement hvalid htokens hb h hpending

omit [DecidableEq ρ] in
theorem exists_apart :
    ∃ before rest t₀ us₀ post₀ m b₀, source.toList = before ++ rest ∧
      Token.scan (.ofFlavor flavor) 0 none rest = t₀ :: us₀ ++ post₀ ∧
      (t₀ :: us₀).map (Token.relocate (Span.shift (Token.byteLength before))) = t :: us ∧
      post₀.map (Token.relocate (Span.shift (Token.byteLength before))) = post ∧
      m.relocate (Span.shift (Token.byteLength before)) = n ∧
      statement (settingFor (.ofFlavor flavor) options source) ⟨t₀ :: us₀ ++ post₀, .empty⟩ =
        .ok () ⟨post₀, b₀⟩ ∧
      b₀.pending.toList = [.node m] ∧ t₀.span.start = 0 ∧
      m.span = ⟨0, Token.stopOf 0 (t₀ :: us₀)⟩ := by
  have hjoinable := hstatement.toJoinable
  have heof : (settingFor (.ofFlavor flavor) options source).stop.kind = .eof := rfl
  rw [htokens] at hvalid
  rw [List.cons_append] at htokens
  obtain ⟨before, rest, hsource, hstart, hrest⟩ := Token.exists_cut_front htokens
    (fun t ht => hvalid t (List.mem_append_left _ ht)) fun hdot => hstatement.not_dot hdot h
  rw [← List.cons_append] at hrest
  obtain ⟨ts, post₀, hscan, hts, rfl⟩ := List.map_eq_append_iff.1 hrest.symm
  obtain ⟨t₀, us₀, rfl, rfl, rfl⟩ := List.map_eq_cons_iff.1 hts
  have hstart₀ : t₀.span.start = 0 := Nat.add_eq_left.1 hstart
  rw [← List.map_cons, ← List.map_append, List.cons_append] at h
  obtain ⟨⟨rest₀, b₀⟩, hdropped, hrest₀, -, hpending₀⟩ :=
    hjoinable.exists_dropped (.refl heof) h hb
  have hrest₀ : post₀ = rest₀ :=
    List.map_injective_iff.2 (Token.relocate_shift_injective _) hrest₀
  subst hrest₀
  rw [hpending, List.append_cancel_left_eq] at hpending₀
  obtain ⟨e, hb₀, he⟩ := List.map_eq_singleton_iff.1 hpending₀.symm
  cases e with
  | token u => exact absurd he (by simp)
  | node m =>
    rw [Element.relocate_node] at he
    exact ⟨before, rest, t₀, us₀, post₀, m, b₀, hsource, hscan, hts, rfl, Element.node.inj he,
      hdropped, hb₀, hstart₀, hjoinable.span_eq heof hscan hdropped hb₀ hstart₀⟩

theorem excised_statement (ht : t.kind ≠ .semicolon) (hpost : Separated post)
    (hclosed : Closed (t :: us)) (hcases : flavor = .mySql → casesEnd post (t :: us))
    (hdashes : flavor = .mySql → ¬['-', '-'] <:+ (n.span.slice source).toList) :
    form.Excised statement flavor options source n := by
  have hjoinable := hstatement.toJoinable
  obtain ⟨before, rest, t₀, us₀, post₀, m, b₀, hsource, hscan, hts, rfl, rfl, h₀, hpending₀, -,
    hspan⟩ := exists_apart hstatement hvalid htokens hb h hpending
  have hvalid₀ : ∀ u ∈ t₀ :: us₀, u.kind.isValid := by
    intro u hu
    apply hvalid (u.relocate (Span.shift (Token.byteLength before)))
    rw [htokens, ← hts]
    exact List.mem_append_right _ (List.mem_append_left _ (List.mem_map_of_mem hu))
  have hpost₀ : Separated post₀ := by
    rintro v vs rfl
    exact hpost (v.relocate _) (vs.map (Token.relocate _)) rfl
  obtain ⟨inside, after, hinside, hstop, hscan₀⟩ :=
    Token.exists_cut_back (Token.sharp_ofFlavor flavor) hscan hvalid₀ hpost₀
  have hcuts : source.toList = before ++ inside ++ after := by
    rw [hsource, hinside, List.append_assoc]
  have hspan : (m.relocate (Span.shift (Token.byteLength before))).span =
      ⟨Token.byteLength before, Token.byteLength (before ++ inside)⟩ := by
    rw [Node.span_relocate, hspan, hstop, Token.byteLength_append]
    rfl
  rw [hspan, Span.slice_eq hcuts, String.toList_ofList] at hdashes
  have hscan₀ := hscan₀ fun hspace =>
    hdashes (by cases flavor with | mySql => rfl | postgreSql => contradiction)
  have hlike : (settingFor (.ofFlavor flavor) options (String.ofList inside)).Like
      (settingFor (.ofFlavor flavor) options source) := ⟨rfl, rfl, rfl, rfl⟩
  have hclosed₀ : Closed (t₀ :: us₀) := by
    obtain ⟨closers, hnested⟩ := hclosed
    rw [← hts, Token.wellNested_relocate] at hnested
    exact ⟨closers, hnested⟩
  have hcases₀ : (Dialect.ofFlavor flavor).flavor = .mySql → casesEnd post₀ (t₀ :: us₀) := by
    rw [← hts, Token.casesEnd_relocate] at hcases
    exact fun hflavor => hcases (by cases flavor with | mySql => rfl | postgreSql => contradiction)
  have hcut := hjoinable.cut hlike hpost₀ h₀ hclosed₀ hcases₀
  obtain ⟨⟨_, b₁⟩, hopening, rfl, hopened₁, hpending₁⟩ :=
    statement_opening form hjoinable hlike.eof hcut
  have ht₀ : t₀.kind ≠ .semicolon := by
    rw [← (List.cons.inj hts).1] at ht
    exact ht
  have hentries : form.entries statement _ ⟨t₀ :: us₀, form.opening⟩ = .ok () ⟨[], b₁⟩ :=
    entries_of_statement hlike.eof (hjoinable.takes hlike.eof) ht₀
      (Token.scan_ne_eof 0 none inside t₀ (hscan₀ ▸ List.mem_cons_self)) hopening
  obtain ⟨tree, htree, hin⟩ := exists_parseTree_of_entries hscan₀ hvalid₀ hopened₁ hentries
  refine ⟨before, inside, after, hcuts, hspan, tree, m, htree, ?_, rfl⟩
  rw [hin, hpending₁]
  change List.filterMap _ b₀.pending.toList = _
  rw [hpending₀]
  rfl

omit [DecidableEq ρ] in
theorem span_eq : n.span = ⟨t.span.start, Token.stopOf 0 (t :: us)⟩ := by
  obtain ⟨before, -, t₀, us₀, -, m, -, -, -, hts, -, rfl, -, -, hstart, hspan⟩ :=
    exists_apart hstatement hvalid htokens hb h hpending
  rw [← hts, Token.stopOf_relocate, ← (List.cons.inj hts).1, Node.span_relocate, hspan,
    Token.span_relocate]
  unfold Span.shift
  rw [hstart]

end

theorem excised (hstatement : Excisable (.ofFlavor flavor) options.maxDepth statement)
    {tree : SyntaxTree ρ}
    (htree : parseTree (form.script statement) (.ofFlavor flavor) source options = .ok tree)
    {n : Node ρ} (hn : n ∈ form.statementsIn tree.root)
    (hnested : Token.properlyNested
      (Token.inPiece n.span (Token.tokenize (.ofFlavor flavor) source).dropLast))
    (hcases : flavor = .mySql →
      casesEnd (Token.behindPiece n.span (Token.tokenize (.ofFlavor flavor) source).dropLast)
        (Token.inPiece n.span (Token.tokenize (.ofFlavor flavor) source).dropLast))
    (hdashes : flavor = .mySql → ¬['-', '-'] <:+ (n.span.slice source).toList) :
    form.Excised statement flavor options source n := by
  obtain ⟨hvalid, hrun⟩ := run_eq_ok.1 (parseTree_eq_ok.1 htree).1
  obtain ⟨b, hentries, hin⟩ := exists_entries_of_script hstatement.toJoinable rfl
    (fun _ => Token.kind_ne_eof) hrun
  obtain ⟨ns, hns, hstands⟩ := exists_stands hstatement rfl (fun _ => Token.kind_ne_eof) rfl hentries
  have hns : form.statementsIn tree.root = ns := hin.trans hns
  rw [Token.dropLast_tokenize] at *
  rw [hns] at hn
  generalize htokens : Token.scan (.ofFlavor flavor) 0 none source.toList = tokens at *
  cases hstands n hn with
  | empty hkind =>
    rw [← htokens] at hvalid
    exact excised_empty hstatement hvalid htokens hkind
  | statement ht hpost hb h hpending =>
    rw [← htokens] at hvalid
    have hspan := span_eq hstatement hvalid htokens hb h hpending
    obtain ⟨hinside, hbehind⟩ := Token.pieces_of_scan htokens
    rw [← hspan] at hinside hbehind
    rw [hinside] at hnested hcases
    rw [hbehind] at hcases
    exact excised_statement hstatement hvalid htokens hb h hpending ht hpost ⟨[], hnested⟩ hcases
      hdashes

end

end ScriptForm

end SqlScript
