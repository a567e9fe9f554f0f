import SqlScript.Proofs.Lineage.Statement
import SqlScript.Proofs.Mirror.Reading
import SqlScript.Proofs.Shape.Slots

/-!
Whole statements that mirror their tree, as far as it is the same for all grammars.
-/

namespace SqlScript

open SqlScript.Tree (Node Element)

variable {ρ : Type}

namespace Shape

/--
Everything of a kind that `p` holds of stands right behind the keyword.
-/
def Introduces (word : Keyword) (p : ρ → Bool) (f : Shape ρ) : Prop :=
  ∀ ⦃es⦄, f.Matches es → ∀ m, Element.node m ∈ es → p m.rule →
    ∃ t : Token, t.isKeyword word ∧ [.token t, .node m] <:+: es

namespace Introduces

variable {word : Keyword} {p : ρ → Bool} {f g : Shape ρ}

theorem of_bars (h : f.rules.all (!p ·)) : f.Introduces word p := by
  intro es hes m hm hp
  have hrule := List.all_eq_true.1 h _ (hes.rule_mem (List.mem_filterMap.2 ⟨_, hm, rfl⟩))
  simp [hp] at hrule

theorem append (hf : f.Introduces word p) (hg : g.Introduces word p) :
    (f ++ g).Introduces word p := by
  rintro _ ⟨xs, ys, rfl, hxs, hys⟩ m hm hp
  obtain hm | hm := List.mem_append.1 hm
  · obtain ⟨t, ht, hsub⟩ := hf hxs m hm hp
    exact ⟨t, ht, hsub.trans (List.prefix_append xs ys).isInfix⟩
  · obtain ⟨t, ht, hsub⟩ := hg hys m hm hp
    exact ⟨t, ht, hsub.trans (List.suffix_append xs ys).isInfix⟩

theorem or (hf : f.Introduces word p) (hg : g.Introduces word p) :
    (f ||| g).Introduces word p :=
  fun _ hes => hes.elim (hf ·) (hg ·)

theorem append_or {e : Shape ρ} (hf : (e ++ f).Introduces word p) (hg : (e ++ g).Introduces word p) :
    (e ++ (f ||| g)).Introduces word p := by
  rintro _ ⟨xs, ys, rfl, hxs, hys | hys⟩
  · exact hf ⟨xs, ys, rfl, hxs, hys⟩
  · exact hg ⟨xs, ys, rfl, hxs, hys⟩

theorem opt (hf : f.Introduces word p) : f.opt.Introduces word p :=
  or (of_bars rfl) hf

theorem behind (rules : List ρ) (q : Node ρ → Bool) :
    (Shape.word word ++ .node rules q).Introduces word p := by
  rintro _ ⟨_, _, rfl, ⟨t, rfl, ht⟩, k, rfl, -⟩ m hm -
  obtain rfl : m = k := by simpa using hm
  exact ⟨t, ht, List.infix_rfl⟩

end Introduces

def Lacks (word : Keyword) (f : Shape ρ) : Prop :=
  ∀ ⦃es⦄, f.Matches es → ∀ t, Element.token t ∈ es → t.isKeyword word = false

namespace Lacks

variable {word other : Keyword} {f g : Shape ρ}

theorem append (hf : f.Lacks word) (hg : g.Lacks word) : (f ++ g).Lacks word := by
  rintro _ ⟨xs, ys, rfl, hxs, hys⟩ t ht
  exact (List.mem_append.1 ht).elim (hf hxs t) (hg hys t)

theorem opt (hf : f.Lacks word) : f.opt.Lacks word := by
  rintro _ (rfl | hes)
  · nofun
  · exact hf hes

theorem node (rules : List ρ) (q : Node ρ → Bool) : (node rules q).Lacks word := by
  rintro _ ⟨m, rfl, -⟩ t ht
  simp at ht

theorem token {p : Token → Bool} (hp : ∀ t, p t → t.isKeyword word = false) :
    (token p : Shape ρ).Lacks word := by
  rintro _ ⟨u, rfl, hu⟩ t ht
  cases List.mem_singleton.1 ht
  exact hp _ hu

theorem keyword (h : other ≠ word) : (Shape.word other : Shape ρ).Lacks word :=
  .token fun t ht => by simp_all [Token.isKeyword]

theorem parens (hf : f.Lacks word) : f.parens.Lacks word := by
  have hkind : ∀ kind : TokenKind, (∀ word, (TokenKind.keyword word).alike kind = false) →
      (Shape.kind kind : Shape ρ).Lacks word := by
    intro kind hkind
    refine .token fun t ht => ?_
    unfold Token.isKeyword Token.keyword?
    split
    · rename_i hword
      rw [hword, hkind] at ht
      contradiction
    · rfl
  exact .append (.append (hkind .leftParen fun _ => rfl) hf) (hkind .rightParen fun _ => rfl)

end Lacks

end Shape

theorem Tree.Node.Formed.follows [Grammar ρ] {n m : Node ρ} {word : Keyword} {p : ρ → Bool}
    (h : n.Formed) {rule : ρ} (hrule : n.rule = rule)
    (hshape : (Grammar.shape rule).Introduces word p) (hm : n.findChild? p = some m) :
    n.Follows word m := by
  subst hrule
  have hmem := Tree.mem_children_of_mem_childNodes (Node.mem_childNodes_of_findChild? hm)
  exact hshape h.matches_children m hmem (Node.rule_of_findChild? hm)

theorem Tree.Node.Formed.cases_of_joinCondition [Grammar ρ] [DecidableEq ρ] {n : Node ρ}
    (hn : n.Formed) {rule list : ρ} (hrule : n.rule = rule) {rules : List ρ} {q : Node ρ → Bool}
    {p : ρ → Bool} {f : Shape ρ} (hshape : Grammar.shape rule = (.word .ON ++ .node rules q ||| f))
    (hrules : rules.all p) (hlist : f.requires (· == list)) (hf : f.Lacks .ON) :
    (n.hasKeyword .ON = true ∧ ∃ m, n.findChild? p = some m ∧ n.Follows .ON m) ∨
      n.hasKeyword .ON = false ∧ ∃ m, n.child? list = some m := by
  have h := hn.matches_children
  rw [hrule, hshape] at h
  obtain ⟨_, _, hchildren, ⟨t, rfl, ht⟩, m, rfl, hm, -⟩ | h := h
  · have hnodes : n.childNodes = [m] := by
      rw [Node.childNodes_eq, hchildren]
      rfl
    refine .inl ⟨?_, m, ?_, t, ht, hchildren ▸ List.infix_rfl⟩
    · refine List.any_eq_true.2 ⟨t, ?_, ht⟩
      unfold Node.tokens
      rw [hchildren]
      exact List.mem_cons_self
    · rw [Node.findChild?, hnodes]
      exact List.find?_cons_of_pos (List.all_eq_true.1 hrules _ hm)
  · obtain ⟨m, hm, hkind⟩ := h.exists_of_requires hlist
    refine .inr ⟨?_, Option.isSome_iff_exists.1 (List.find?_isSome.2 ⟨m, ?_, hkind⟩)⟩
    · refine List.any_eq_false.2 fun t ht => ?_
      have hmem : Element.token t ∈ n.children := by
        obtain ⟨e, he, hread⟩ := List.mem_filterMap.1 ht
        cases e <;> cases hread
        exact he
      simp [hf h t hmem]
    · rwa [Node.childNodes_eq]

/--
The statement is of the kind that its first token says.
-/
def Statement.Keeps (n : Node ρ) (s : Statement) : Prop :=
  ∀ t, n.leaves.head? = some t →
    match t.kind with
    | .leftParen | .keyword .SELECT => ∃ q, s = .select q
    | .keyword .INSERT => ∃ i, s = .insert i
    | .keyword .UPDATE => ∃ u, s = .update u
    | .keyword .DELETE => ∃ d, s = .delete d
    | _ => True

theorem Statement.keeps_semicolon {n : Node ρ} {s : Statement} {t : Token}
    (hchildren : n.children = [.token t]) (ht : t.kind = .semicolon) : s.Keeps n := by
  intro t' ht'
  rw [Tree.Node.leaves_eq, hchildren] at ht'
  obtain rfl : t = t' := Option.some.inj ht'
  rw [ht]
  trivial

def NamedTable.alone (t : NamedTable) : TableSource :=
  .base ⟨t.excerpt, .named t, []⟩

namespace Part

/--
The part is a statement, or what it changes.
-/
def IsWhole : Part → Prop
  | statement _ | insert _ | update _ | delete _ | assignment _ | tables _ | source _ | item _ =>
    True
  | _ => False

end Part

namespace Mirror

section

variable [DecidableEq ρ] [Production ρ] (M : Mirror ρ)

def ImageRows (rows : List (List Expr)) (ns : List (Node ρ)) : Prop :=
  List.Forall₂ (fun row n => List.Forall₂ (fun x m => M.Image (.expr x) m) row n.childNodes) rows ns

/--
The part is the image of the production, or mirrors it as a whole.
-/
def Mirrors (whole : Part → Node ρ → Prop) (p : Part) (n : Node ρ) : Prop :=
  M.Image p n ∨ whole p n

/--
What a grammar takes for a whole mirrors what is inside, piece by piece.
-/
structure Wholes (whole : Part → Node ρ → Prop) : Prop where
  inward : M.roles.Inward
  isWhole {p : Part} {n : Node ρ} : whole p n → p.IsWhole
  inside {p : Part} {n : Node ρ} : whole p n →
    ∀ q ∈ p.pieces, Part.Inside (M.Mirrors whole) n q

/--
The statement mirrors its slot: it is of the kind that the first token says, and all that it keeps
as text may be kept.
-/
structure Agrees (whole : Part → Node ρ → Prop) (n : Node ρ) (s : Statement) : Prop where
  kind : s.Keeps n
  whole : whole (.statement s) n
  text {body : Unstructured} : .unstructured body ∈ s.parts → ∃ m, n.Contains m ∧ M.Keeps body m

end

section

variable [DecidableEq ρ] [Production ρ] {M : Mirror ρ} {whole : Part → Node ρ → Prop}
  {n m : Node ρ} {p : Part}

theorem inside_of_image (h : Part.Inside M.Image n p) : Part.Inside (M.Mirrors whole) n p :=
  h.mono fun _ => .inl

theorem ImageRows.inside {rows : List (List Expr)} {ns : List (Node ρ)} (h : M.ImageRows rows ns)
    (hns : ∀ k ∈ ns, n.Contains k) : ∀ x ∈ rows.flatten, Part.Inside M.Image n (.expr x) := by
  intro x hx
  obtain ⟨row, hrow, hx⟩ := List.mem_flatten.1 hx
  obtain ⟨k, hk, hitems⟩ := exists_of_forall₂ h hrow
  exact Part.inside_of_forall₂ hitems (fun _ hm => (hns k hk).trans (.of_mem hm)) x hx

/-- What holds of all images, of all that is a whole, and of the words in both, holds of all parts
of a statement. -/
theorem Wholes.forall_mem_parts (hM : M.Wholes whole) {P : Part → Prop} {root : Node ρ}
    (hexcerpt : ∀ e, P (.excerpt e)) (himage : ∀ {p n}, root.Contains n → M.Image p n → P p)
    (hwhole : ∀ {p n}, root.Contains n → whole p n → P p)
    (hwords : ∀ {p n}, root.Contains n → M.Mirrors whole p n → ∀ q ∈ p.pieces, q.IsWord → P q)
    {s : Statement} (hn : root.Contains n) (h : whole (.statement s) n) : ∀ p ∈ s.parts, P p := by
  refine Part.forall_mem_all_of_related (R := M.Mirrors whole) hexcerpt
    (fun hn h => h.elim (himage hn) (hwhole hn)) (fun {p n} _ h q hq => ?_) hwords hn (.inr h)
  obtain h | h := h
  · exact inside_of_image (h.pieces_inside hM.inward q hq)
  · exact hM.inside h q hq

theorem Agrees.of_whole (hM : M.Wholes whole) {s : Statement} (h : whole (.statement s) n)
    (hkind : s.Keeps n) : M.Agrees whole n s where
  kind := hkind
  whole := h
  text := by
    intro body hbody
    refine hM.forall_mem_parts (P := fun p => ∀ body, p = .unstructured body →
      ∃ m, n.Contains m ∧ M.Keeps body m) (fun _ => nofun) ?_ ?_ ?_ (.refl n) h _ hbody body rfl
    · rintro _ m hm hp body rfl
      cases hp with
      | unstructured hkeeps => exact ⟨m, hm, hkeeps⟩
    · rintro _ m - hp body rfl
      exact absurd (hM.isWhole hp) id
    · rintro _ m - - _ - hword body rfl
      exact absurd hword id

end

end Mirror

structure Reader.ImagesValues [DecidableEq ρ] [Production ρ] [Grammar ρ] (reader : Reader ρ)
    (M : Mirror ρ) (text : List Char) (depth : Nat) (default : ρ) : Prop
    extends reader.Images M text depth where
  default {n : Node ρ} : n.rule = default →
    reader.expression n = .unstructured (M.context.unstructured n) ∧ M.kept n

namespace Reading

variable [DecidableEq ρ] [Production ρ] [Grammar ρ] {M : Mirror ρ} {text : List Char}
  {reader : Reader ρ} {depth : Nat} {n : Node ρ} {default : ρ}

theorem value_image (hreader : reader.ImagesValues M text depth default)
    (hn : n.Ready M.context text depth) (hrule : M.roles.isAssigned default n.rule) :
    M.Image (.expr (reader.expression n)) n := by
  rw [Roles.isAssigned, Bool.or_eq_true] at hrule
  obtain h | h := hrule
  · exact hreader.expression hn h
  · obtain ⟨hread, hkept⟩ := hreader.default (eq_of_beq h)
    rw [hread]
    exact .exprText ⟨rfl, hkept⟩

theorem rows_image (hreader : reader.ImagesValues M text depth default) (rows : List (Node ρ))
    (rule : ρ) (hrule : (Grammar.shape rule).rules.all (M.roles.isAssigned default))
    (hrows : ∀ row ∈ rows, row.Ready M.context text depth ∧ row.rule = rule) :
    M.ImageRows (rows.map (·.childNodes.map reader.expression)) rows := by
  refine forall₂_map fun row hrow => forall₂_map fun m hm => ?_
  obtain ⟨hready, rfl⟩ := hrows row hrow
  exact value_image hreader (hready.below hm)
    (List.all_eq_true.1 hrule _ (hready.formed.rule_mem hm))

end Reading

end SqlScript
