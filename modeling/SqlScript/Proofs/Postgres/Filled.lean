import SqlScript.Proofs.Filled
import SqlScript.Proofs.Postgres.Mirror

/-!
Nothing is missing in the statements of a PostgreSQL script.
-/

namespace SqlScript.Postgres

open SqlScript.Tree (Node Element)

variable {c : Context} {root : Node Rule} {text : List Char} {good : Excerpt → Prop}
  {n m : Node Rule} {p : Part}

namespace Read

theorem nameOfTokens?_filled {ts : List Token} (hspelled : ∀ t ∈ ts, t.Spelled c.source)
    (hdotted : ∀ t ∈ ts, t.isDotted) {name : DottedName} (h : nameOfTokens? c ts = some name) :
    name.Filled := by
  obtain ⟨first, hfirst, h⟩ := Option.bind_eq_some_iff.1 h
  obtain ⟨last, -, h⟩ := Option.bind_eq_some_iff.1 h
  cases h
  have hsubset : ∀ t ∈ ts.filter (·.kind != .dot), t ∈ ts ∧ t.kind ≠ .dot := by
    intro t ht
    simpa using ht
  have hmem := List.mem_of_mem_head? hfirst
  refine Context.nameOfTokens_filled _ (fun t ht => hspelled t (hsubset t ht).1)
    (fun t ht => hdotted t (hsubset t ht).1) ⟨first, hmem, ?_⟩
  exact Token.isNamePart_of_isDotted (hdotted _ (hsubset _ hmem).1) (hsubset _ hmem).2

theorem tableName_filled (hn : n.Genuine c text) (hrule : n.rule = .qualifiedName) :
    (tableName c n).Filled :=
  (hn.dottedName_filled hrule rfl).toTableName

theorem columnref_tokens (hn : n.Formed) (hrule : n.rule = .columnref) :
    (∀ t ∈ n.tokens, t.isDotted ∨ t.kind = .star) ∧ ∃ t ∈ n.tokens, t.isNamePart := by
  have h := hn.matches_children
  rw [hrule] at h
  obtain ⟨_, _, hchildren, ⟨first, rfl, hfirst⟩, _, zs, rfl, hdotted, hstar⟩ := h
  constructor
  · intro t ht
    rw [Node.mem_tokens, hchildren, List.mem_append, List.mem_append] at ht
    obtain ht | ht | ht := ht
    · cases List.mem_singleton.1 ht
      exact .inl (Bool.or_eq_true_iff.2 (.inl hfirst))
    · exact .inl (Node.isDotted_of_matches hdotted ht)
    · obtain rfl | ⟨_, _, rfl, ⟨dot, rfl, hdot⟩, star, rfl, hstar⟩ := hstar
      · contradiction
      · obtain ht | ht := List.mem_append.1 ht
        all_goals cases List.mem_singleton.1 ht
        · exact .inl (Bool.or_eq_true_iff.2 (.inr hdot))
        · exact .inr (TokenKind.eq_star_of_alike hstar)
  · refine ⟨first, ?_, hfirst⟩
    rw [Node.mem_tokens, hchildren]
    exact List.mem_cons_self

theorem columnref_filled (hn : n.Genuine c text) (hrule : n.rule = .columnref)
    (hstar : n.hasToken .star = false) : (columnName c n).Filled := by
  obtain ⟨htokens, hpart⟩ := columnref_tokens hn.formed hrule
  have hnone : ∀ t ∈ n.tokens, t.kind ≠ .star := by
    simpa [Node.hasToken] using hstar
  exact DottedName.Filled.toColumnName <| Context.nameOfTokens_filled _
    (fun t ht => hn.spelled t (n.leaves_eq ▸ Tree.mem_leaves_of_mem_tokens ht))
    (fun t ht => (htokens t ht).resolve_right (hnone t ht)) hpart

theorem qualifier_filled (hn : n.Genuine c text) (hrule : n.rule = .columnref) {name : DottedName}
    (h : nameOfTokens? c (n.tokens.filter (·.kind != .star)) = some name) : name.Filled := by
  obtain ⟨htokens, -⟩ := columnref_tokens hn.formed hrule
  have hsubset : ∀ t ∈ n.tokens.filter (·.kind != .star), t ∈ n.tokens ∧ t.kind ≠ .star := by
    intro t ht
    simpa using ht
  refine nameOfTokens?_filled (fun t ht => ?_) (fun t ht => ?_) h
  · exact hn.spelled t (n.leaves_eq ▸ Tree.mem_leaves_of_mem_tokens (hsubset t ht).1)
  · exact (htokens t (hsubset t ht).1).resolve_right (hsubset t ht).2

theorem isDotted_of_indirection {es : List (Element Rule)}
    (h : (Shape.many (.many (.token Token.isDotted) ||| .brackets .tokens)).Matches es) :
    ∀ t ∈ (es.filterMap Element.token?).takeWhile (·.kind != .leftBracket), t.isDotted := by
  obtain ⟨parts, rfl, hparts⟩ := h
  induction parts with
  | nil => simp
  | cons es parts ih =>
    have ih := ih fun xs hxs => hparts xs (List.mem_cons_of_mem _ hxs)
    intro t ht
    rw [List.flatten_cons, List.filterMap_append] at ht
    obtain hdotted | hbracket := hparts es List.mem_cons_self
    · have hes : ∀ u ∈ es.filterMap Element.token?, u.isDotted := by
        intro u hu
        obtain ⟨e, he, hu⟩ := List.mem_filterMap.1 hu
        cases e
        all_goals cases hu
        exact Node.isDotted_of_matches hdotted he
      rw [List.takeWhile_append] at ht
      split at ht
      · exact (List.mem_append.1 ht).elim (hes t) (ih t)
      · exact hes t (List.takeWhile_subset _ ht)
    · obtain ⟨_, _, rfl, ⟨_, _, rfl, ⟨opener, rfl, hopener⟩, -⟩, -⟩ := hbracket
      have hcloser : TokenKind.leftBracket.closer? = some .rightBracket := rfl
      have hkind : opener.kind = .leftBracket := (TokenKind.eq_of_alike hcloser).1 hopener
      simp [Element.token?, hkind] at ht

theorem isDotted_of_target (hn : n.Formed) (hrule : n.rule = .setTarget) :
    ∀ t ∈ n.tokens.takeWhile (·.kind != .leftBracket), t.isDotted := by
  have hshape := hn.matches_children
  rw [hrule] at hshape
  obtain ⟨_, _, hchildren, ⟨first, rfl, hfirst⟩, hrest⟩ := hshape
  intro t ht
  unfold Node.tokens at ht
  rw [hchildren, List.filterMap_append] at ht
  change t ∈ (first :: _).takeWhile _ at ht
  rw [List.takeWhile_cons] at ht
  split at ht
  · obtain rfl | ht := List.mem_cons.1 ht
    · exact Bool.or_eq_true_iff.2 (.inl hfirst)
    · exact isDotted_of_indirection hrest t ht
  · contradiction

theorem targetColumn?_filled (hn : n.Genuine c text) (hrule : n.rule = .setTarget)
    {name : ColumnName} (h : targetColumn? c n = some name) : name.Filled := by
  obtain ⟨dotted, hdotted, rfl⟩ := Option.map_eq_some_iff.1 h
  refine (nameOfTokens?_filled (fun t ht => ?_) (isDotted_of_target hn.formed hrule)
    hdotted).toColumnName
  have ht := List.takeWhile_subset _ ht
  exact hn.spelled t (n.leaves_eq ▸ Tree.mem_leaves_of_mem_tokens ht)

theorem selectElement?_filled (hn : n.Genuine c text) {e : SelectElement}
    (h : selectElement? c n = some e) : ∀ q ∈ (Part.element e).names, q.Filled := by
  unfold selectElement? at h
  split at h
  · cases h
    exact List.forall_mem_nil _
  · obtain ⟨expression, hexpression, h⟩ := Option.bind_eq_some_iff.1 h
    split at h
    · rename_i operand hoperand
      have hcontains := (Node.Contains.of_findChild? hexpression).trans
        (contains_of_bareOperand? hoperand)
      have hoperand := hn.of_contains hcontains
      split at h
      · rename_i hrule
        split at h
        · cases h
          exact Part.forall_mem_optional.2 fun name => qualifier_filled hoperand hrule
        · rename_i hnone
          cases h
          exact List.forall_mem_singleton.2 (columnref_filled hoperand hrule (by simpa using hnone))
      · cases h
        exact List.forall_mem_nil _
      · cases h
        exact List.forall_mem_nil _
    · cases h
      exact List.forall_mem_nil _
  · contradiction

theorem atom_filled (hn : n.Genuine c text) : ∀ q ∈ (Part.atom (atom c n)).names, q.Filled := by
  unfold atom
  split
  · exact List.forall_mem_nil _
  · rename_i hrule
    split
    · exact List.forall_mem_nil _
    · rename_i hnone
      exact List.forall_mem_singleton.2 (columnref_filled hn hrule (by simpa using hnone))
  · exact List.forall_mem_nil _

theorem namedTable?_filled (hn : n.Genuine c text) {t : NamedTable}
    (h : namedTable? c n = some t) : t.name.Filled := by
  obtain ⟨name, hname, h⟩ := Option.bind_eq_some_iff.1 h
  cases h
  exact tableName_filled (hn.of_contains (.of_child? hname)) (Node.rule_of_child? hname)

end Read

theorem mirror_fills (hroot : root.Genuine c text) : (mirror c).Fills root where
  formed := hroot.formed
  elements hn hrule := hn.star_or_childNodes_ne_nil hrule rfl
  lists := by
    change ∀ rule ∈ [Rule.fromList, .nameList, .inList], Grammar.nests rule
    decide
  element hn h := Read.selectElement?_filled (hroot.of_contains hn) h
  namedTable hn h := Read.namedTable?_filled (hroot.of_contains hn) h
  atom hn := Read.atom_filled (hroot.of_contains hn)

theorem MirrorsSource.filled {source : InsertSource} (h : MirrorsSource c n source)
    (hn : n.Formed) : source.Filled := by
  cases h with
  | values hchild _ himage =>
    have hformed := hn.child (Node.mem_childNodes_of_child? hchild)
    obtain ⟨row, hrow⟩ := hformed.exists_child (Node.rule_of_child? hchild) (· == .valuesRow)
      (by decide)
    exact ne_nil_of_forall₂ himage (List.ne_nil_of_mem
      (List.mem_filter.2 ⟨Node.mem_childNodes_of_findChild? hrow, Node.rule_of_findChild? hrow⟩))
  | defaultValues | select => trivial

theorem assignedTargets_ne_nil (hn : n.Formed) (hrule : n.rule = .updateStmt) :
    assignedTargets n ≠ [] := by
  obtain ⟨m, hm⟩ := hn.exists_child hrule isSetClause (by decide)
  have hmem := Node.mem_childNodes_of_findChild? hm
  have hkind := Node.rule_of_findChild? hm
  have hrequires : ∀ rule ∈ Rule.all, isSetClause rule →
      (shape rule).requires (· == .setTarget) := by decide
  obtain ⟨target, htarget⟩ :=
    (hn.child hmem).exists_child rfl _ (hrequires _ m.rule.mem_all hkind)
  have htarget : target ∈ m.childrenOf .setTarget := List.mem_filter.2
    ⟨Node.mem_childNodes_of_findChild? htarget, Node.rule_of_findChild? htarget⟩
  exact List.ne_nil_of_mem
    (List.mem_flatMap.2 ⟨m, List.mem_filter.2 ⟨hmem, hkind⟩, List.mem_map_of_mem htarget⟩)

theorem Whole.filled (hn : n.Genuine c text) (h : Whole c p n) :
    p.Filled ∧ ∀ q ∈ p.names, q.Filled := by
  cases p with
  | insert i =>
    obtain ⟨target, m, htarget, hm, htable⟩ := MirrorsInsert.table h
    refine ⟨(MirrorsInsert.source h).filled hn.formed, List.forall_mem_singleton.2 ?_⟩
    have hcontains := (Node.Contains.of_child? htarget).trans (.of_child? hm)
    exact htable ▸ Read.tableName_filled (hn.of_contains hcontains) (Node.rule_of_child? hm)
  | update u =>
    have hne := assignedTargets_ne_nil hn.formed (MirrorsUpdate.rule h)
    exact ⟨ne_nil_of_forall₂ (MirrorsUpdate.assignments h) hne, List.forall_mem_nil _⟩
  | delete d =>
    refine ⟨trivial, List.forall_mem_map.2 fun name hname => ?_⟩
    rw [MirrorsDelete.targets h] at hname
    contradiction
  | assignment a =>
    obtain ⟨target, htarget, h⟩ := h
    refine ⟨trivial, List.forall_mem_singleton.2 ?_⟩
    exact Read.targetColumn?_filled (hn.of_contains (.of_childrenOf htarget))
      (eq_of_beq (Node.rule_of_mem_childrenThat htarget)) h.column
  | tables ts =>
    obtain ⟨clause, h⟩ := h
    refine ⟨?_, List.forall_mem_nil _⟩
    cases h <;> exact List.cons_ne_nil _ _
  | statement | source => exact ⟨trivial, List.forall_mem_nil _⟩
  | _ => contradiction

theorem statementsOf_filled (hc : c.Cuts text good) (hroot : root.Genuine c text) :
    ∀ s ∈ statementsOf c root, ∀ p ∈ s.parts, p.Filled := by
  intro s hs
  obtain ⟨n, hn, hagrees⟩ := exists_of_forall₂ (statementsOf_agree hc hroot).flip hs
  exact wholes.filled (mirror_fills hroot) (fun hn h => h.filled (hroot.of_contains hn))
    (Node.contains_of_mem_slots hn) hagrees.whole

end SqlScript.Postgres
