import SqlScript.Postgres.Reading
import SqlScript.Proofs.Reading

/-!
What is read from the tree of a PostgreSQL script lies where it was read.
-/

namespace SqlScript.Postgres.Read

open SqlScript.Tree
open SqlScript.Part (tail forall_mem_optional)

variable {c : Context} {text : List Char} {good : Excerpt → Prop} {n m : Node Rule}

theorem tableName_from (hc : c.Cuts text good) (hn : (Element.node n).Laid text) :
    (Part.tableName (tableName c n)).From good n.span :=
  Reading.tableName_from hc hn.proper rfl

theorem columnName_from (hc : c.Cuts text good) (hn : (Element.node n).Laid text) :
    (Part.columnName (columnName c n)).From good n.span :=
  Reading.columnName_from hc hn.proper rfl

theorem namedTable?_from (hc : c.Cuts text good) (hn : (Element.node n).Laid text) {t : NamedTable}
    (h : namedTable? c n = some t) : (Part.item (.named t)).From good n.span := by
  obtain ⟨m, hm, h⟩ := Option.bind_eq_some_iff.1 h
  cases h
  have hcontains := Node.Contains.of_child? hm
  apply Part.From.intro hc hn.proper rfl
  · simp only [Part.pieces, TableItem.pieces, List.forall_mem_cons, List.not_mem_nil, false_implies,
      implies_true, and_true]
    refine ⟨.excerpt hc hn.proper, ?_⟩
    exact (tableName_from hc (hn.of_contains hcontains)).within (hn.within hcontains)
  · simp [Part.groups]

theorem contains_of_bareOperand? (h : bareOperand? n = some m) : n.Contains m := by
  unfold bareOperand? at h
  obtain ⟨_, _, h⟩ := Option.bind_eq_some_iff.1 h
  obtain ⟨primary, hprimary, h⟩ := Option.bind_eq_some_iff.1 h
  obtain ⟨_, _, h⟩ := Option.bind_eq_some_iff.1 h
  exact (Node.Contains.of_firstChild? hprimary).trans (.of_firstChild? h)

theorem nameOfTokens?_excerpt (hn : (Element.node n).Laid text) {tokens : List Token}
    (htokens : ∀ t ∈ tokens, t ∈ n.tokens) {name : DottedName}
    (h : nameOfTokens? c tokens = some name) :
    ∃ s : Span, s.Proper text ∧ s.Within n.span ∧ name.excerpt = c.excerpt s := by
  unfold nameOfTokens? at h
  obtain ⟨first, hfirst, h⟩ := Option.bind_eq_some_iff.1 h
  obtain ⟨last, hlast, h⟩ := Option.bind_eq_some_iff.1 h
  cases h
  have hfirst := htokens _ (List.mem_filter.1 (List.mem_of_mem_head? hfirst)).1
  have hlast := htokens _ (List.mem_filter.1 (List.mem_of_getLast? hlast)).1
  obtain ⟨hproper, hwithin⟩ := hn.proper_token hfirst
  obtain ⟨hproper', hwithin'⟩ := hn.proper_token hlast
  exact ⟨_, hproper.merge hproper', hwithin.merge hwithin', rfl⟩

theorem selectElement?_from (hc : c.Cuts text good) (hn : (Element.node n).Laid text)
    {e : SelectElement} (h : selectElement? c n = some e) : (Part.element e).From good n.span := by
  have hfunction : (Part.element (.function (c.unstructured n))).From good n.span :=
    .only (Reading.unstructured_from hc hn) rfl rfl rfl
  have hexpression : (Part.element (.expression (c.unstructured n))).From good n.span :=
    .only (Reading.unstructured_from hc hn) rfl rfl rfl
  have hstar : ∀ name : Option DottedName,
      (∀ name', name = some name' → (Part.dottedName name').From good n.span) →
      (Part.element (.star ⟨c.excerptOf n, name⟩)).From good n.span := by
    intro name hname
    apply Part.From.intro hc hn.proper rfl
    · simp only [Part.pieces, SelectElement.pieces, List.forall_mem_cons, forall_mem_optional]
      exact ⟨.excerpt hc hn.proper, hname⟩
    · simp [Part.groups]
  unfold selectElement? at h
  split at h
  · cases h
    exact hstar none (by simp)
  · obtain ⟨expression, hexpr, h⟩ := Option.bind_eq_some_iff.1 h
    split at h
    · rename_i operand hoperand
      have hcontains := (Node.Contains.of_findChild? hexpr).trans (contains_of_bareOperand? hoperand)
      have hoperand := hn.of_contains hcontains
      split at h
      · split at h
        · cases h
          apply hstar
          intro name hname
          have htokens : ∀ t ∈ operand.tokens.filter (·.kind != .star), t ∈ operand.tokens :=
            fun _ ht => (List.mem_filter.1 ht).1
          obtain ⟨s, hproper, hwithin, hexcerpt⟩ := nameOfTokens?_excerpt hoperand htokens hname
          apply Part.From.within _ (hwithin.trans (hn.within hcontains))
          exact .leaf hc hproper hexcerpt rfl rfl
        · cases h
          apply Part.From.intro hc hn.proper rfl
          · simp only [Part.pieces, SelectElement.pieces, List.forall_mem_cons, List.not_mem_nil,
              false_implies, implies_true, and_true]
            refine ⟨.excerpt hc hn.proper, ?_⟩
            exact (columnName_from hc hoperand).within (hn.within hcontains)
          · simp [Part.groups]
      · cases h
        exact hfunction
      · cases h
        exact hexpression
    · cases h
      exact hexpression
  · contradiction

theorem atom_from (hc : c.Cuts text good) (hn : (Element.node n).Laid text) :
    (Part.atom (atom c n)).From good n.span := by
  have hunstructured : (Part.atom (.unstructured (c.unstructured n))).From good n.span :=
    .only (Reading.unstructured_from hc hn) rfl rfl rfl
  unfold atom
  split
  · apply Part.From.intro hc hn.proper rfl
    · simp only [Part.pieces, Atom.pieces, List.forall_mem_cons, List.not_mem_nil, false_implies,
        implies_true, and_true]
      exact ⟨.excerpt hc hn.proper, .excerpt hc hn.proper⟩
    · simp [Part.groups]
  · split
    · exact hunstructured
    · exact .only (columnName_from hc hn) rfl rfl rfl
  · exact hunstructured

theorem roles_inward : roles.Inward where
  partOperand? h := .of_findChild? h
  tables? h := by
    obtain ⟨m, hm, hk⟩ := Option.bind_eq_some_iff.1 h
    exact (Node.Contains.of_child? hm).trans (.of_child? hk)
  rowCondition? h := .of_child? h
  atom? h := .of_firstChild? h

theorem roles_sound (hc : c.Cuts text good) : roles.Sound c text good where
  toInward := roles_inward
  element? hn h := selectElement?_from hc hn h
  limit hn := .leaf hc hn.proper rfl rfl rfl
  namedTable? hn h := namedTable?_from hc hn h
  atom hn := atom_from hc hn

section

variable {reader : Reader Rule}

theorem targetColumn?_from (hc : c.Cuts text good) (hn : (Element.node n).Laid text)
    {column : ColumnName} (h : targetColumn? c n = some column) :
    (Part.columnName column).From good n.span := by
  obtain ⟨name, hname, rfl⟩ := Option.map_eq_some_iff.1 h
  have htokens : ∀ t ∈ n.tokens.takeWhile (·.kind != .leftBracket), t ∈ n.tokens :=
    fun _ ht => (List.takeWhile_sublist _).subset ht
  obtain ⟨s, hproper, hwithin, hexcerpt⟩ := nameOfTokens?_excerpt hn htokens hname
  exact (Reading.columnName_from hc hproper hexcerpt).within hwithin

theorem assignment_from (hc : c.Cuts text good) (hreader : reader.Sound text good)
    (hn : (Element.node n).Laid text) {target value : Node Rule} (htarget : n.Contains target)
    (hvalue : n.Contains value) {column : ColumnName} (h : targetColumn? c target = some column) :
    (Part.assignment ⟨c.excerptOf n, column, reader.expression value⟩).From good n.span := by
  apply Part.From.intro hc hn.proper rfl
  · simp only [Part.pieces, Assignment.pieces, List.forall_mem_cons, List.not_mem_nil,
      false_implies, implies_true, and_true]
    refine ⟨.excerpt hc hn.proper, ?_, ?_⟩
    · exact (targetColumn?_from hc (hn.of_contains htarget) h).within (hn.within htarget)
    · exact (hreader.expression (hn.of_contains hvalue)).within (hn.within hvalue)
  · simp [Part.groups]

theorem cases_of_mem_pairedTargets {target value : Node Rule}
    (h : (target, value) ∈ pairedTargets n) :
    target ∈ n.childrenOf .setTarget ∧ ∃ whole, n.findChild? Rule.isExpressionForm = some whole ∧
      (value = whole ∨ ∃ row, bareOperand? whole = some row ∧ row.rule = .cExprNested ∧
        value ∈ row.childrenThat Rule.isExpressionForm) := by
  unfold pairedTargets at h
  dsimp only at h
  split at h
  · contradiction
  · rename_i whole hwhole
    have hpaired : ∀ row : List (Node Rule),
        (target, value) ∈ (if row.length = (n.childrenOf .setTarget).length then
          (n.childrenOf .setTarget).zip row else (n.childrenOf .setTarget).map (·, whole)) →
        target ∈ n.childrenOf .setTarget ∧ (value = whole ∨ value ∈ row) := by
      intro row hmem
      split at hmem
      · obtain ⟨htarget, hvalue⟩ := List.of_mem_zip hmem
        exact ⟨htarget, .inr hvalue⟩
      · obtain ⟨target', htarget, heq⟩ := List.mem_map.1 hmem
        cases heq
        exact ⟨htarget, .inl rfl⟩
    obtain ⟨htarget, hvalue⟩ := hpaired _ h
    refine ⟨htarget, whole, hwhole, hvalue.imp_right fun hrow => ?_⟩
    split at hrow
    · rename_i row hoperand
      split at hrow
      · rename_i hnested
        exact ⟨row, hoperand, hnested, hrow⟩
      · contradiction
    · contradiction

theorem contains_of_mem_pairedTargets {target value : Node Rule}
    (h : (target, value) ∈ pairedTargets n) : n.Contains target ∧ n.Contains value := by
  obtain ⟨htarget, whole, hwhole, hvalue⟩ := cases_of_mem_pairedTargets h
  refine ⟨.of_childrenOf htarget, (Node.Contains.of_findChild? hwhole).trans ?_⟩
  obtain rfl | ⟨row, hrow, -, hvalue⟩ := hvalue
  · exact .refl _
  · exact (contains_of_bareOperand? hrow).trans (.of_childrenThat hvalue)

theorem assignmentsOf_from (hc : c.Cuts text good) (hreader : reader.Sound text good)
    (hn : (Element.node n).Laid text) :
    ∀ a ∈ assignmentsOf c reader n, (Part.assignment a).From good n.span := by
  intro a ha
  obtain ⟨m, hm, ha⟩ := List.mem_flatMap.1 ha
  apply Part.From.within _ (hn.child_within hm)
  have hm := hn.child hm
  split at ha
  · obtain ⟨target, htarget, h⟩ := Option.bind_eq_some_iff.1 (Option.mem_toList.1 ha)
    obtain ⟨column, hcolumn, h⟩ := Option.bind_eq_some_iff.1 h
    obtain ⟨value, hvalue, h⟩ := Option.bind_eq_some_iff.1 h
    cases h
    exact assignment_from hc hreader hm (.of_child? htarget) (.of_findChild? hvalue) hcolumn
  · obtain ⟨⟨target, value⟩, hpair, h⟩ := List.mem_filterMap.1 ha
    obtain ⟨column, hcolumn, h⟩ := Option.bind_eq_some_iff.1 h
    cases h
    obtain ⟨htarget, hvalue⟩ := contains_of_mem_pairedTargets hpair
    exact assignment_from hc hreader hm htarget hvalue hcolumn
  · contradiction

theorem changedTables?_from (hc : c.Cuts text good) (hreader : reader.Sound text good)
    (hn : (Element.node n).Laid text) {clause : Rule} {t : TableSources}
    (h : changedTables? c reader n clause = some t) : (Part.tables t).From good n.span := by
  obtain ⟨target, htarget, h⟩ := Option.bind_eq_some_iff.1 h
  obtain ⟨table, htable, h⟩ := Option.bind_eq_some_iff.1 h
  have hcontains := Node.Contains.of_child? htarget
  have htarget := hn.of_contains hcontains
  have hfirst := Reading.lone_from hc htarget.proper (namedTable?_from hc htarget htable)
  dsimp only at h
  split at h
  · rename_i list hlist
    cases h
    obtain ⟨m, hm, hlist⟩ := Option.bind_eq_some_iff.1 hlist
    have hlistIn := (Node.Contains.of_child? hm).trans (.of_child? hlist)
    have hlist := hn.of_contains hlistIn
    have hproper := htarget.proper.merge hlist.proper
    apply Part.From.within _ ((hn.within hcontains).merge (hn.within hlistIn))
    apply Part.From.intro hc hproper rfl
    · simp only [Part.pieces, TableSources.pieces, List.map_cons, List.forall_mem_cons,
        List.forall_mem_map]
      refine ⟨.excerpt hc hproper, hfirst.within (.merge_left _ _), ?_⟩
      intro source hsource
      have htables := hreader.tables hlist
      have hmem : .source source ∈ (Part.tables (reader.tables list)).pieces :=
        List.mem_cons_of_mem _ (List.mem_map_of_mem hsource)
      have hinside := (htables.nested.inside hmem).trans htables.inside
      exact (Part.From.mk (htables.nested.nested hmem) hinside).within (.merge_right _ _)
    · simp [Part.groups]
  · cases h
    apply Part.From.within _ (hn.within hcontains)
    apply Part.From.intro hc htarget.proper rfl
    · simp only [Part.pieces, TableSources.pieces, List.map_cons, List.map_nil,
        List.forall_mem_cons, List.not_mem_nil, false_implies, implies_true, and_true]
      exact ⟨.excerpt hc htarget.proper, hfirst⟩
    · simp [Part.groups]

theorem insertSource?_from (hc : c.Cuts text good) (hreader : reader.Sound text good)
    (hn : (Element.node n).Laid text) {source : InsertSource}
    (h : insertSource? c reader n = some source) :
    (∀ q ∈ source.pieces, q.From good n.span) ∧
      ∀ g ∈ source.groups, ∀ q ∈ g.2, q.origin.span.Within g.1.span := by
  unfold insertSource? at h
  split at h
  · rename_i values hvalues
    cases h
    have hcontains := Node.Contains.of_child? hvalues
    have hrows : ∀ m ∈ values.childrenOf .valuesRow, values.Contains m := fun _ => .of_childrenOf
    obtain ⟨hpieces, hgroups⟩ :=
      Reading.values_from hc hreader (hn.of_contains hcontains) hrows
    exact ⟨fun q hq => (hpieces q hq).within (hn.within hcontains), hgroups⟩
  · rename_i defaults _ hdefaults
    cases h
    have hcontains := Node.Contains.of_child? hdefaults
    simp only [InsertSource.pieces, InsertSource.groups, List.forall_mem_singleton,
      List.not_mem_nil, false_implies, implies_true, and_true]
    exact (Part.From.excerpt hc (hn.of_contains hcontains).proper).within (hn.within hcontains)
  · obtain ⟨m, hm, h⟩ := Option.bind_eq_some_iff.1 h
    obtain ⟨select, hselect, rfl⟩ := Option.map_eq_some_iff.1 h
    have hcontains := Node.Contains.of_findChild? hm
    simp only [InsertSource.pieces, InsertSource.groups, List.forall_mem_singleton,
      List.not_mem_nil, false_implies, implies_true, and_true]
    exact (hreader.select? (hn.of_contains hcontains) hselect).within (hn.within hcontains)

theorem insert?_from (hc : c.Cuts text good) (hreader : reader.Sound text good)
    (hn : (Element.node n).Laid text) {i : Insert} (h : insert? c reader n = some i) :
    (Part.insert i).From good n.span := by
  obtain ⟨source, hsource, h⟩ := Option.bind_eq_some_iff.1 h
  obtain ⟨target, htarget, h⟩ := Option.bind_eq_some_iff.1 h
  obtain ⟨table, htable, h⟩ := Option.bind_eq_some_iff.1 h
  cases h
  have hcontains := (Node.Contains.of_child? htarget).trans (.of_child? htable)
  have htable := (tableName_from hc (hn.of_contains hcontains)).within (hn.within hcontains)
  obtain ⟨hpieces, hgroups⟩ := insertSource?_from hc hreader hn hsource
  apply Reading.insert_from hc hn.proper rfl htable hpieces hgroups
  · simp
  · exact fun _ => Reading.unstructured?_from hc hn
  · exact fun _ => Reading.unstructured?_from hc hn

theorem rowCondition?_from (hreader : reader.Sound text good) (hn : (Element.node n).Laid text)
    {x : Expr} (h : rowCondition? reader n = some x) : (Part.expr x).From good n.span :=
  Reading.clause_condition?_from hreader hn (fun _ => .of_child?) h

theorem update?_from (hc : c.Cuts text good) (hreader : reader.Sound text good)
    (hn : (Element.node n).Laid text) {u : Update} (h : update? c reader n = some u) :
    (Part.update u).From good n.span := by
  obtain ⟨tables, htables, h⟩ := Option.bind_eq_some_iff.1 h
  cases h
  apply Reading.update_from hc hn.proper rfl (changedTables?_from hc hreader hn htables)
  · exact assignmentsOf_from hc hreader hn
  · exact fun _ => rowCondition?_from hreader hn
  · simp [tail, Part.optional]
  · exact fun _ => Reading.unstructured?_from hc hn

theorem delete?_from (hc : c.Cuts text good) (hreader : reader.Sound text good)
    (hn : (Element.node n).Laid text) {d : Delete} (h : delete? c reader n = some d) :
    (Part.delete d).From good n.span := by
  obtain ⟨tables, htables, h⟩ := Option.bind_eq_some_iff.1 h
  cases h
  apply Reading.delete_from hc hn.proper rfl (changedTables?_from hc hreader hn htables)
  · simp
  · exact fun _ => rowCondition?_from hreader hn
  · simp [tail, Part.optional]
  · exact fun _ => Reading.unstructured?_from hc hn

theorem structured?_from (hc : c.Cuts text good) (hreader : reader.Sound text good)
    (hn : (Element.node n).Laid text) {s : Statement} (h : structured? c reader n = some s) :
    (Part.statement s).From good n.span := by
  unfold structured? at h
  split at h
  · obtain ⟨select, hselect, rfl⟩ := Option.map_eq_some_iff.1 h
    obtain ⟨m, hm, hread⟩ := Option.bind_eq_some_iff.1 hselect
    have hcontains := Node.Contains.of_firstChild? hm
    have hselect := (hreader.select? (hn.of_contains hcontains) hread).within (hn.within hcontains)
    exact .same hselect rfl rfl rfl
  · obtain ⟨insert, hinsert, rfl⟩ := Option.map_eq_some_iff.1 h
    exact .only (insert?_from hc hreader hn hinsert) rfl rfl rfl
  · obtain ⟨update, hupdate, rfl⟩ := Option.map_eq_some_iff.1 h
    exact .only (update?_from hc hreader hn hupdate) rfl rfl rfl
  · obtain ⟨delete, hdelete, rfl⟩ := Option.map_eq_some_iff.1 h
    exact .only (delete?_from hc hreader hn hdelete) rfl rfl rfl
  · obtain ⟨create, hcreate, rfl⟩ := Option.map_eq_some_iff.1 h
    obtain ⟨name, _, hcreate⟩ := Option.bind_eq_some_iff.1 hcreate
    cases hcreate
    have hleaf : (Part.createDatabase ⟨c.excerptOf n, c.identifier name, n.hasKeyword .IF⟩).From
        good n.span :=
      .leaf hc hn.proper rfl rfl rfl
    exact .only hleaf rfl rfl rfl
  · contradiction

theorem unlooked_from (hc : c.Cuts text good) (hn : (Element.node n).Laid text) :
    (Part.statement (unlooked c n)).From good n.span := by
  have hunstructured := Reading.unstructured_from hc hn
  unfold unlooked
  split <;> exact .only hunstructured rfl rfl rfl

theorem statementOf_from (hc : c.Cuts text good) (hreader : reader.Sound text good)
    (hn : (Element.node n).Laid text) :
    (Part.statement (statementOf c reader n)).From good n.span := by
  unfold statementOf
  split
  · exact .only (.excerpt hc hn.proper) rfl rfl rfl
  · split
    · rename_i m hm
      have hcontains := Node.Contains.of_firstChild? hm
      have hm := hn.of_contains hcontains
      apply Part.From.within _ (hn.within hcontains)
      exact Reading.getD_from (fun _ => structured?_from hc hreader hm) (unlooked_from hc hm)
    · exact .only (Reading.unstructured_from hc hn) rfl rfl rfl

end

end SqlScript.Postgres.Read

namespace SqlScript.Postgres

open SqlScript.Tree

variable {c : Context} {text : List Char} {good : Excerpt → Prop}

def slots (root : Node Rule) : List (Node Rule) :=
  (root.child? .stmtmulti).toList.flatMap (·.childNodes)

theorem statementsOf_eq_slots (c : Context) (root : Node Rule) :
    statementsOf c root = (slots root).map (Read.statementOf c (.ofTree Read.roles c root)) := by
  unfold statementsOf slots
  cases root.child? .stmtmulti <;> simp

theorem statementsOf_nested (hc : c.Cuts text good) {root : Node Rule}
    (hroot : (Element.node root).Laid text) :
    (∀ s ∈ statementsOf c root, (Part.statement s).Nested good) ∧
      (statementsOf c root).Pairwise fun s t => s.excerpt.span.stop ≤ t.excerpt.span.start := by
  rw [statementsOf_eq_slots]
  exact Reading.statements_nested hroot
    (Read.statementOf_from hc (Reader.ofDepth_sound hc (Read.roles_sound hc) _))

end SqlScript.Postgres
