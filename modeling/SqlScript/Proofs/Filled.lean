import SqlScript.Proofs.Lookahead
import SqlScript.Proofs.Mirror.Statement
import SqlScript.Proofs.Shape.Slots

/-!
Parts with nothing missing: lists have an item at least, and names are not empty.
-/

namespace SqlScript

open SqlScript.Tree (Node Element)

namespace Identifier

theorem collapse_ne_nil (c : Char) {cs : List Char} (h : cs ≠ []) : collapse c cs ≠ [] := by
  fun_cases collapse c cs with
  | case1 => exact List.cons_ne_nil _ _
  | case2 => exact List.cons_ne_nil _ _
  | case3 => exact h

theorem closing?_eq_none {c : Char} (h : TokenKind.startsWord c) : closing? c = none := by
  have hne : ∀ quote, TokenKind.startsWord quote = false → c ≠ quote := by
    rintro quote hquote rfl
    rw [hquote] at h
    contradiction
  have htick := hne '\x60' (by decide)
  have hdouble := hne '"' (by decide)
  have hsingle := hne '\'' (by decide)
  have hbracket := hne '[' (by decide)
  simp [closing?, htick, hdouble, hsingle, hbracket]

theorem ofRaw_startsWord {raw : String} (h : raw.toList.head?.any TokenKind.startsWord) :
    ofRaw raw = ⟨raw, false⟩ := by
  unfold ofRaw
  cases hraw : raw.toList with
  | nil => rfl
  | cons first inner =>
    rw [hraw] at h
    simp [closing?_eq_none h]

theorem ofRaw_isEnclosed {raw : String} (h : TokenKind.isEnclosed raw.toList) :
    (ofRaw raw).value ≠ "" := by
  unfold ofRaw
  cases hraw : raw.toList with
  | nil =>
    rw [hraw] at h
    contradiction
  | cons quote inner =>
    rw [hraw] at h
    simp only [TokenKind.isEnclosed, Bool.and_eq_true, Bool.or_eq_true, beq_iff_eq,
      decide_eq_true_eq] at h
    obtain ⟨⟨hquote, hlast⟩, hlength⟩ := h
    have hclosing : closing? quote = some quote := by
      obtain rfl | rfl := hquote <;> rfl
    have hinner : inner.dropLast ≠ [] := by
      intro hnil
      have := congrArg List.length hnil
      simp at this
      omega
    simp [hclosing, hlast, collapse_ne_nil quote hinner]

end Identifier

theorem Token.Spelled.value_ne_empty {source : String} {t : Token} (h : t.Spelled source)
    (ht : t.isNamePart) : (Identifier.ofRaw (t.text source)).value ≠ "" := by
  have hwritten := h.written
  have hbare : (t.text source).toList.head?.any TokenKind.startsWord →
      (Identifier.ofRaw (t.text source)).value ≠ "" := by
    intro hstart hempty
    rw [Identifier.ofRaw_startsWord hstart] at hempty
    dsimp only at hempty
    rw [hempty] at hstart
    contradiction
  unfold isNamePart at ht
  split at ht
  all_goals first
    | contradiction
    | (rename_i hkind; rw [hkind] at hwritten)
  · exact hbare ((Bool.and_eq_true _ _).mp hwritten).2
  · exact Identifier.ofRaw_isEnclosed hwritten
  · exact hbare ((Bool.and_eq_true _ _).mp hwritten).2

structure DottedName.Filled (name : DottedName) : Prop where
  parts : name.parts ≠ []
  values {i : Identifier} : i ∈ name.identifiers → i.value ≠ ""

structure TableName.Filled (name : TableName) : Prop where
  identifier : name.identifier ≠ ""
  owner : name.owner ≠ some ""

structure ColumnName.Filled (name : ColumnName) : Prop where
  identifier : name.identifier ≠ ""
  owner : name.owner ≠ some ""

theorem DottedName.Filled.split {name : DottedName} (h : name.Filled) :
    name.split.2.1 ≠ "" ∧ name.split.1 ≠ some "" := by
  have hparts : name.identifiers.map (·.value) ≠ [] := by
    simpa [identifiers] using h.parts
  have hvalues : ∀ value ∈ name.identifiers.map (·.value), value ≠ "" :=
    List.forall_mem_map.2 fun _ => h.values
  unfold DottedName.split
  generalize name.identifiers.map (·.value) = values at hparts hvalues
  match values, hparts, hvalues with
  | [identifier], _, hvalues => exact ⟨hvalues _ (by simp), by simp⟩
  | owner :: identifier :: rest, _, hvalues =>
    refine ⟨hvalues _ (by simp), ?_⟩
    simpa using hvalues owner (by simp)

theorem DottedName.Filled.toTableName {name : DottedName} (h : name.Filled) :
    name.toTableName.Filled :=
  ⟨h.split.1, h.split.2⟩

theorem DottedName.Filled.toColumnName {name : DottedName} (h : name.Filled) :
    name.toColumnName.Filled :=
  ⟨h.split.1, h.split.2⟩

theorem Token.isNamePart_of_isDotted {t : Token} (h : t.isDotted) (hdot : t.kind ≠ .dot) :
    t.isNamePart := by
  obtain hpart | hmark := (Bool.or_eq_true _ _).mp h
  · exact hpart
  · exact absurd (TokenKind.eq_dot_of_alike hmark) hdot

theorem Context.nameOfTokens_filled {c : Context} {ts : List Token} (span : Span)
    (hspelled : ∀ t ∈ ts, t.Spelled c.source) (hdotted : ∀ t ∈ ts, t.isDotted)
    (hpart : ∃ t ∈ ts, t.isNamePart) : (c.nameOfTokens span ts).Filled := by
  constructor
  · obtain ⟨t, ht, hpart⟩ := hpart
    have hdot : t.kind ≠ .dot := by
      intro hdot
      simp [Token.isNamePart, hdot] at hpart
    have hmem : t ∈ ts.filter (·.kind != .dot) := List.mem_filter.2 ⟨ht, by simpa using hdot⟩
    exact List.ne_nil_of_mem (List.mem_map_of_mem hmem)
  · simp only [DottedName.identifiers, nameOfTokens, List.map_map, List.mem_map,
      Function.comp_apply]
    rintro i ⟨t, ht, rfl⟩
    obtain ⟨hmem, hdot⟩ := List.mem_filter.1 ht
    exact (hspelled t hmem).value_ne_empty
      (Token.isNamePart_of_isDotted (hdotted t hmem) (by simpa using hdot))

namespace Tree.Node

variable {ρ : Type} [Grammar ρ] {n : Node ρ}

omit [Grammar ρ] in
theorem mem_tokens {t : Token} : t ∈ n.tokens ↔ Element.token t ∈ n.children := by
  unfold tokens
  rw [List.mem_filterMap]
  constructor
  · rintro ⟨e, he, ht⟩
    cases e
    all_goals cases ht
    exact he
  · exact fun h => ⟨_, h, rfl⟩

omit [Grammar ρ] in
theorem isDotted_of_matches {es : List (Element ρ)}
    (h : (Shape.many (.token Token.isDotted) : Shape ρ).Matches es) {t : Token}
    (ht : Element.token t ∈ es) : t.isDotted := by
  obtain ⟨parts, rfl, hparts⟩ := h
  obtain ⟨xs, hxs, ht⟩ := List.mem_flatten.1 ht
  obtain ⟨u, rfl, hu⟩ := hparts xs hxs
  cases List.mem_singleton.1 ht
  exact hu

theorem Genuine.dottedName_filled {c : Context} {text : List Char} (hn : n.Genuine c text)
    {rule : ρ} (hrule : n.rule = rule) (hshape : Grammar.shape rule = .dotted) :
    (c.dottedName n).Filled := by
  have h := hn.formed.matches_children
  rw [hrule, hshape] at h
  obtain ⟨_, _, hchildren, ⟨first, rfl, hfirst⟩, hrest⟩ := h
  refine Context.nameOfTokens_filled _
    (fun t ht => hn.spelled t (n.leaves_eq ▸ Tree.mem_leaves_of_mem_tokens ht)) ?_
    ⟨first, ?_, hfirst⟩
  · intro t ht
    rw [mem_tokens, hchildren] at ht
    obtain ht | ht := List.mem_append.1 ht
    · cases List.mem_singleton.1 ht
      exact Bool.or_eq_true_iff.2 (.inl hfirst)
    · exact isDotted_of_matches hrest ht
  · rw [mem_tokens, hchildren]
    exact List.mem_cons_self

end Tree.Node

def SelectElements.Filled (es : SelectElements) : Prop :=
  es.star ∨ es.elements ≠ []

def InsertSource.Filled : InsertSource → Prop
  | values rows => rows.rows ≠ []
  | set assignments => assignments ≠ []
  | select _ | defaultValues _ => True

namespace Part

/--
Nothing is missing in a part that could not be empty.
-/
def Filled : Part → Prop
  | elements es => es.Filled
  | tables ts => ts.sources ≠ []
  | joinCondition (.sharing _ columns) => columns ≠ []
  | predicate (.among _ _ _ (.list items)) => items ≠ []
  | insert i => i.source.Filled
  | update u => u.assignments ≠ []
  | tableName name => name.Filled
  | columnName name => name.Filled
  | dottedName name => name.Filled
  | _ => True

def names : Part → List Part
  | element (.star e) => optional .dottedName e.qualifier
  | element (.column e) => [.columnName e.column]
  | item (.named t) => [.tableName t.name]
  | insert i => [.tableName i.table]
  | delete d => d.targets.map .tableName
  | assignment a => [.columnName a.column]
  | atom (.column name) => [.columnName name]
  | _ => []

def IsName : Part → Prop
  | tableName _ | columnName _ | dottedName _ => True
  | _ => False

theorem not_isName_of_mem_inserted {source : InsertSource} : ∀ q ∈ source.pieces, ¬q.IsName := by
  cases source
  all_goals
    simp only [InsertSource.pieces, List.forall_mem_cons, List.forall_mem_map, List.not_mem_nil,
      false_implies, implies_true, and_true]
    simp [IsName]

theorem mem_names_of_mem_pieces {p : Part} : ∀ q ∈ p.pieces, q.IsName → q ∈ p.names := by
  cases p <;> rename_i s <;> cases s <;> (try (rename_i s; cases s)) <;>
    simp only [Part.pieces, tail, Select.pieces, SimpleSelect.pieces, UnionPart.pieces,
      UnionSelect.pieces, ParenthesisSelect.pieces, QuerySpecification.pieces, QueryOperand.pieces,
      QueryBody.pieces, QueryGroup.pieces, SelectElements.pieces, SelectElement.pieces,
      TableSources.pieces, TableSource.pieces, TableItem.pieces, Join.pieces, Join.condition,
      Join.item, Join.excerpt, JoinCondition.pieces, Insert.pieces, Update.pieces, Delete.pieces,
      Assignment.pieces, Expr.pieces, InSource.pieces, Predicate.pieces, Atom.pieces,
      Statement.pieces, List.forall_mem_append, List.forall_mem_cons, List.forall_mem_map,
      List.forall_mem_flatMap, forall_mem_optional, List.not_mem_nil, false_implies, implies_true,
      and_true]
  case insert.mk.none | insert.mk.some =>
    grind [names, IsName, not_isName_of_mem_inserted]
  all_goals simp +contextual [IsName, names, optional]

theorem IsWord.filled {p : Part} (h : p.IsWord) (hname : p.IsName → p.Filled) : p.Filled := by
  cases p
  all_goals first
    | trivial
    | exact hname trivial

theorem filled_of_mem_pieces {p q : Part} (hnames : ∀ k ∈ p.names, k.Filled) (hq : q ∈ p.pieces)
    (hword : q.IsWord) : q.Filled :=
  hword.filled fun hname => hnames q (mem_names_of_mem_pieces q hq hname)

end Part

section

variable {ρ : Type} [DecidableEq ρ] [Production ρ] [Grammar ρ] {M : Mirror ρ}

/--
Is there something nested in every production of this kind?
-/
def Grammar.nests (rule : ρ) : Bool :=
  (shape rule).requires fun _ => true

omit [DecidableEq ρ] [Production ρ] in
theorem Tree.Node.Formed.childNodes_ne_nil {n : Node ρ} (hn : n.Formed) {rule : ρ}
    (hrule : n.rule = rule) (h : Grammar.nests rule) : n.childNodes ≠ [] := by
  obtain ⟨m, hm⟩ := hn.exists_child hrule _ h
  exact List.ne_nil_of_mem (Node.mem_childNodes_of_findChild? hm)

omit [DecidableEq ρ] [Production ρ] in
theorem Tree.Node.Formed.star_or_childNodes_ne_nil {n : Node ρ} (hn : n.Formed) {rule : ρ}
    (hrule : n.rule = rule) {rules : List ρ} (hshape : Grammar.shape rule =
      .commasFrom (.kind .star ||| .oneIn rules) (.oneIn rules)) :
    n.hasToken .star ∨ n.childNodes ≠ [] := by
  have h := hn.matches_children
  rw [hrule, hshape] at h
  obtain ⟨_, ys, hchildren, ⟨t, rfl, ht⟩ | ⟨m, rfl, -⟩, -⟩ := h
  · have hmem : t ∈ n.tokens := by
      rw [Node.mem_tokens, hchildren]
      exact List.mem_cons_self
    exact .inl (List.any_eq_true.2 ⟨t, hmem, beq_of_eq (TokenKind.eq_star_of_alike ht)⟩)
  · right
    rw [Node.childNodes_eq, hchildren]
    exact List.cons_ne_nil m _

theorem ne_nil_of_forall₂ {α β : Type} {R : α → β → Prop} {as : List α} {bs : List β}
    (h : List.Forall₂ R as bs) (hbs : bs ≠ []) : as ≠ [] := by
  rintro rfl
  exact hbs (List.forall₂_nil_left_iff.1 h)

/--
The lists of a tree hold something, and what the roles of a grammar read in it has its names.
-/
structure Mirror.Fills (M : Mirror ρ) (root : Node ρ) : Prop where
  formed : root.Formed
  elements {n : Node ρ} : n.Formed → n.rule = M.roles.elements →
    n.hasToken .star ∨ n.childNodes ≠ []
  lists : ∀ rule ∈ [M.roles.tableList, M.roles.nameList, M.roles.inList], Grammar.nests rule
  element {n : Node ρ} {e : SelectElement} : root.Contains n →
    M.roles.element? M.context n = some e → ∀ q ∈ (Part.element e).names, q.Filled
  namedTable {n : Node ρ} {t : NamedTable} : root.Contains n →
    M.roles.namedTable? M.context n = some t → t.name.Filled
  atom {n : Node ρ} : root.Contains n → ∀ q ∈ (Part.atom (M.roles.atom M.context n)).names, q.Filled

namespace Mirror

variable {root n : Node ρ} {p : Part}

theorem Image.names_filled (hM : M.Fills root) (hn : root.Contains n) (h : M.Image p n) :
    ∀ q ∈ p.names, q.Filled := by
  cases h with
  | element hread => exact hM.element hn hread
  | itemNamed _ hread => exact List.forall_mem_singleton.2 (hM.namedTable hn hread)
  | atom hread => exact hread ▸ hM.atom hn
  | _ => exact List.forall_mem_nil _

theorem Image.filled (hM : M.Fills root) (hn : root.Contains n) (h : M.Image p n) : p.Filled := by
  have hformed : n.Formed := fun m hm => hM.formed m (hn.trans hm)
  have hlists := hM.lists
  simp only [List.forall_mem_cons] at hlists
  obtain ⟨htables, hnames, hitems, -⟩ := hlists
  cases h with
  | elements hrule _ hstar helements =>
    obtain h | h := hM.elements hformed hrule
    · exact .inl (hstar.trans h)
    · exact .inr (ne_nil_of_forall₂ helements h)
  | tables hrule _ hsources =>
    exact ne_nil_of_forall₂ hsources (hformed.childNodes_ne_nil hrule htables)
  | joinSharing _ _ hlist hcolumns =>
    have hlistFormed := hformed.child (Node.mem_childNodes_of_child? hlist)
    rw [Part.Filled, hcolumns, Ne, List.map_eq_nil_iff]
    exact hlistFormed.childNodes_ne_nil (Node.rule_of_child? hlist) hnames
  | amongItems _ _ _ _ _ _ hlist hshown =>
    have hlistFormed := hformed.child (Node.mem_childNodes_of_child? hlist)
    exact ne_nil_of_forall₂ hshown
      (hlistFormed.childNodes_ne_nil (Node.rule_of_child? hlist) hitems)
  | _ => trivial

theorem Wholes.filled {whole : Part → Node ρ → Prop} (hwholes : M.Wholes whole)
    (hM : M.Fills root) (hwhole : ∀ {p n}, root.Contains n → whole p n →
      p.Filled ∧ ∀ q ∈ p.names, q.Filled)
    {s : Statement} (hn : root.Contains n) (h : whole (.statement s) n) :
    ∀ p ∈ s.parts, p.Filled := by
  refine hwholes.forall_mem_parts (fun _ => trivial) (fun hn h => h.filled hM hn)
    (fun hn h => (hwhole hn h).1) (fun hn h q hq hword => ?_) hn h
  exact Part.filled_of_mem_pieces
    (h.elim (fun h => h.names_filled hM hn) fun h => (hwhole hn h).2) hq hword

end Mirror

end

end SqlScript
