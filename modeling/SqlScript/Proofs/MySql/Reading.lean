import SqlScript.MySql.Reading
import SqlScript.Proofs.Reading

/-!
What is read from the tree of a MySQL script lies where it was read.
-/

namespace SqlScript.MySql.Read

open SqlScript.Tree
open SqlScript.Part (tail forall_mem_optional)

variable {c : Context} {text : List Char} {good : Excerpt → Prop} {n : Node Rule}

theorem tableName?_from (hc : c.Cuts text good) (hn : (Element.node n).Laid text) {name : TableName}
    (h : tableName? c n = some name) : (Part.tableName name).From good n.span := by
  obtain ⟨m, hm, rfl⟩ := Option.map_eq_some_iff.1 h
  have hcontains := Node.Contains.of_child? hm
  exact (Reading.tableName_from hc (hn.of_contains hcontains).proper rfl).within
    (hn.within hcontains)

theorem namedTable?_from (hc : c.Cuts text good) (hn : (Element.node n).Laid text) {t : NamedTable}
    (h : namedTable? c n = some t) : (Part.item (.named t)).From good n.span := by
  obtain ⟨name, hname, h⟩ := Option.bind_eq_some_iff.1 h
  cases h
  obtain ⟨m, hm, hread⟩ := Option.bind_eq_some_iff.1 hname
  have hcontains := Node.Contains.of_child? hm
  apply Part.From.intro hc hn.proper rfl
  · simp only [Part.pieces, TableItem.pieces, List.forall_mem_cons, List.not_mem_nil, false_implies,
      implies_true, and_true]
    refine ⟨.excerpt hc hn.proper, ?_⟩
    exact (tableName?_from hc (hn.of_contains hcontains) hread).within (hn.within hcontains)
  · simp [Part.groups]

theorem columnName_from (hc : c.Cuts text good) (hn : (Element.node n).Laid text) :
    (Part.columnName (columnName c n)).From good n.span :=
  Reading.columnName_from hc hn.proper rfl

theorem selectElement?_from (hc : c.Cuts text good) (hn : (Element.node n).Laid text)
    {e : SelectElement} (h : selectElement? c n = some e) : (Part.element e).From good n.span := by
  unfold selectElement? at h
  split at h
  · cases h
    apply Part.From.intro hc hn.proper rfl
    · simp only [Part.pieces, SelectElement.pieces, List.forall_mem_cons, forall_mem_optional]
      refine ⟨.excerpt hc hn.proper, ?_⟩
      intro name hname
      obtain ⟨m, hm, rfl⟩ := Option.map_eq_some_iff.1 hname
      have hcontains := Node.Contains.of_child? hm
      apply Part.From.within _ (hn.within hcontains)
      exact .leaf hc (hn.of_contains hcontains).proper rfl rfl rfl
    · simp [Part.groups]
  · obtain ⟨m, hm, h⟩ := Option.bind_eq_some_iff.1 h
    cases h
    have hcontains := Node.Contains.of_child? hm
    apply Part.From.intro hc hn.proper rfl
    · simp only [Part.pieces, SelectElement.pieces, List.forall_mem_cons, List.not_mem_nil,
        false_implies, implies_true, and_true]
      refine ⟨.excerpt hc hn.proper, ?_⟩
      exact (columnName_from hc (hn.of_contains hcontains)).within (hn.within hcontains)
    · simp [Part.groups]
  · cases h
    exact .only (Reading.unstructured_from hc hn) rfl rfl rfl
  · cases h
    exact .only (Reading.unstructured_from hc hn) rfl rfl rfl
  · contradiction

theorem limit_from (hc : c.Cuts text good) (hn : (Element.node n).Laid text) :
    (Part.limit (limit c n)).From good n.span := by
  have hexcerpt : (limit c n).excerpt = c.excerptOf n := by
    unfold limit
    dsimp only
    split
    · rfl
    split <;> rfl
  exact .leaf hc hn.proper hexcerpt rfl rfl

theorem atom_from (hc : c.Cuts text good) (hn : (Element.node n).Laid text) :
    (Part.atom (atom c n)).From good n.span := by
  have hunstructured : (Part.atom (.unstructured (c.unstructured n))).From good n.span :=
    .only (Reading.unstructured_from hc hn) rfl rfl rfl
  unfold atom
  dsimp only
  split
  · cases h : n.child? .constant with
    | none => exact hunstructured
    | some m =>
      have hcontains := Node.Contains.of_child? h
      apply Part.From.intro hc hn.proper rfl
      · simp only [Option.map_eq_map, Option.map_some, Option.getD_some, Part.pieces, Atom.pieces,
          List.forall_mem_cons, List.not_mem_nil, false_implies, implies_true, and_true]
        refine ⟨.excerpt hc hn.proper, ?_⟩
        exact (Part.From.excerpt hc (hn.of_contains hcontains).proper).within (hn.within hcontains)
      · simp [Part.groups]
  · cases h : n.child? .fullColumnName with
    | none => exact hunstructured
    | some m =>
      have hcontains := Node.Contains.of_child? h
      apply Part.From.within _ (hn.within hcontains)
      exact .only (columnName_from hc (hn.of_contains hcontains)) rfl rfl rfl
  · exact hunstructured

theorem roles_inward : roles.Inward where
  partOperand? h := .of_firstChild? h
  tables? h := by
    obtain ⟨m, hm, hk⟩ := Option.bind_eq_some_iff.1 h
    exact (Node.Contains.of_child? hm).trans (.of_child? hk)
  rowCondition? h := .of_child? h
  atom? h := .of_findChild? h

theorem roles_sound (hc : c.Cuts text good) : roles.Sound c text good where
  toInward := roles_inward
  element? hn h := selectElement?_from hc hn h
  limit hn := limit_from hc hn
  namedTable? hn h := namedTable?_from hc hn h
  atom hn := atom_from hc hn

section

variable {reader : Reader Rule}

theorem assignmentsOf_from (hc : c.Cuts text good) (hreader : reader.Sound text good)
    (hn : (Element.node n).Laid text) :
    ∀ a ∈ assignmentsOf c reader n, (Part.assignment a).From good n.span := by
  intro a ha
  obtain ⟨m, hm, h⟩ := List.mem_filterMap.1 ha
  obtain ⟨value, hvalue, h⟩ := Option.bind_eq_some_iff.1 h
  obtain ⟨column, hcolumn, h⟩ := Option.bind_eq_some_iff.1 h
  cases h
  have hcontains := Node.Contains.of_childrenOf hm
  have hm := hn.of_contains hcontains
  apply Part.From.within _ (hn.within hcontains)
  have hvalue := Node.Contains.of_findChild? hvalue
  have hcolumn := Node.Contains.of_child? hcolumn
  apply Part.From.intro hc hm.proper rfl
  · simp only [Part.pieces, Assignment.pieces, List.forall_mem_cons, List.not_mem_nil,
      false_implies, implies_true, and_true]
    refine ⟨.excerpt hc hm.proper, ?_, ?_⟩
    · exact (columnName_from hc (hm.of_contains hcolumn)).within (hm.within hcolumn)
    · exact (hreader.expression (hm.of_contains hvalue)).within (hm.within hvalue)
  · simp [Part.groups]

theorem loneName_from (hc : c.Cuts text good) {s : Span} (hs : s.Proper text) {table : TableName}
    (h : (Part.tableName table).From good s) (asName : Option String) :
    (Part.tables ⟨c.excerpt s, [.base ⟨c.excerpt s, .named ⟨c.excerpt s, table, asName⟩, []⟩]⟩).From
      good s := by
  have hitem : (Part.item (.named ⟨c.excerpt s, table, asName⟩)).From good s := by
    apply Part.From.intro hc hs rfl
    · simp only [Part.pieces, TableItem.pieces, List.forall_mem_cons, List.not_mem_nil,
        false_implies, implies_true, and_true]
      exact ⟨.excerpt hc hs, h⟩
    · simp [Part.groups]
  apply Part.From.intro hc hs rfl
  · simp only [Part.pieces, TableSources.pieces, List.map_cons, List.map_nil, List.forall_mem_cons,
      List.not_mem_nil, false_implies, implies_true, and_true]
    exact ⟨.excerpt hc hs, Reading.lone_from hc hs hitem⟩
  · simp [Part.groups]

theorem singleTable?_from (hc : c.Cuts text good) (hn : (Element.node n).Laid text)
    {t : TableSources} (h : singleTable? c n = some t) : (Part.tables t).From good n.span := by
  obtain ⟨name, hname, h⟩ := Option.bind_eq_some_iff.1 h
  obtain ⟨table, htable, h⟩ := Option.bind_eq_some_iff.1 h
  have hcontains := Node.Contains.of_child? hname
  have hname := hn.of_contains hcontains
  have htable := tableName?_from hc hname htable
  split at h
  · rename_i uid huid
    cases h
    have huid := Node.Contains.of_child? huid
    have hproper := hname.proper.merge (hn.of_contains huid).proper
    have hwithin := (hn.within hcontains).merge (hn.within huid)
    exact (loneName_from hc hproper (htable.within (.merge_left _ _)) _).within hwithin
  · cases h
    exact (loneName_from hc hname.proper htable _).within (hn.within hcontains)

theorem insertSource?_from (hc : c.Cuts text good) (hreader : reader.Sound text good)
    (hn : (Element.node n).Laid text) {source : InsertSource}
    (h : insertSource? c reader n = some source) :
    (∀ q ∈ source.pieces, q.From good n.span) ∧
      ∀ g ∈ source.groups, ∀ q ∈ g.2, q.origin.span.Within g.1.span := by
  unfold insertSource? at h
  split at h
  · rename_i value hvalue
    have hcontains := Node.Contains.of_child? hvalue
    have hvalue := hn.of_contains hcontains
    split at h
    · rename_i m hm
      obtain ⟨s, hs, rfl⟩ := Option.map_eq_some_iff.1 h
      have hselect := Node.Contains.of_findChild? hm
      simp only [InsertSource.pieces, InsertSource.groups, List.forall_mem_singleton,
        List.not_mem_nil, false_implies, implies_true, and_true]
      apply Part.From.within _ (hn.within hcontains)
      exact (hreader.select? (hvalue.of_contains hselect) hs).within (hvalue.within hselect)
    · cases h
      have hrows : ∀ m ∈ value.childrenOf .expressionsWithDefaults, value.Contains m :=
        fun _ => .of_childrenOf
      obtain ⟨hpieces, hgroups⟩ := Reading.values_from hc hreader hvalue hrows
      exact ⟨fun q hq => (hpieces q hq).within (hn.within hcontains), hgroups⟩
  · cases h
    simp only [InsertSource.pieces, InsertSource.groups, List.forall_mem_map, List.not_mem_nil,
      false_implies, implies_true, and_true]
    exact assignmentsOf_from hc hreader hn

theorem insert?_from (hc : c.Cuts text good) (hreader : reader.Sound text good)
    (hn : (Element.node n).Laid text) {i : Insert} (h : insert? c reader n = some i) :
    (Part.insert i).From good n.span := by
  obtain ⟨source, hsource, h⟩ := Option.bind_eq_some_iff.1 h
  obtain ⟨table, htable, h⟩ := Option.bind_eq_some_iff.1 h
  cases h
  obtain ⟨m, hm, hread⟩ := Option.bind_eq_some_iff.1 htable
  have hcontains := Node.Contains.of_child? hm
  obtain ⟨hpieces, hgroups⟩ := insertSource?_from hc hreader hn hsource
  apply Reading.insert_from hc hn.proper rfl _ hpieces hgroups
  · intro a ha
    cases hk : n.child? .duplicateKeyUpdate with
    | none =>
      rw [hk] at ha
      contradiction
    | some k =>
      rw [hk] at ha
      have hcontains := Node.Contains.of_child? hk
      exact (assignmentsOf_from hc hreader (hn.of_contains hcontains) a ha).within
        (hn.within hcontains)
  · simp
  · simp
  · exact (tableName?_from hc (hn.of_contains hcontains) hread).within (hn.within hcontains)

theorem tables_from (hreader : reader.Sound text good) (hn : (Element.node n).Laid text)
    {t : TableSources} (h : reader.tables <$> n.child? .tableSources = some t) :
    (Part.tables t).From good n.span := by
  obtain ⟨m, hm, rfl⟩ := Option.map_eq_some_iff.1 h
  have hcontains := Node.Contains.of_child? hm
  exact (hreader.tables (hn.of_contains hcontains)).within (hn.within hcontains)

theorem update?_from (hc : c.Cuts text good) (hreader : reader.Sound text good)
    (hn : (Element.node n).Laid text) {u : Update} (h : update? c reader n = some u) :
    (Part.update u).From good n.span := by
  have htables : ∃ tables, (Part.tables tables).From good n.span ∧ u = {
      excerpt := c.excerptOf n
      tables
      assignments := assignmentsOf c reader n
      condition := Reading.condition? roles reader n
      orderBy := Reading.unstructured? c n .orderByClause
      limit := Reading.limit? roles c n
      returning := none } := by
    unfold update? at h
    dsimp only at h
    split at h
    · obtain ⟨tables, htables, h⟩ := Option.bind_eq_some_iff.1 h
      cases h
      exact ⟨tables, singleTable?_from hc hn htables, rfl⟩
    · obtain ⟨tables, htables, h⟩ := Option.bind_eq_some_iff.1 h
      cases h
      exact ⟨tables, tables_from hreader hn htables, rfl⟩
  obtain ⟨tables, htables, rfl⟩ := htables
  apply Reading.update_from hc hn.proper rfl htables
  · exact assignmentsOf_from hc hreader hn
  · exact fun _ => Reading.condition?_from hreader hn
  · exact Reading.tail_from hc (roles_sound hc) hn _
  · simp

theorem delete?_from (hc : c.Cuts text good) (hreader : reader.Sound text good)
    (hn : (Element.node n).Laid text) {d : Delete} (h : delete? c reader n = some d) :
    (Part.delete d).From good n.span := by
  have htables : (Part.tables d.tables).From good n.span ∧
      (∀ t ∈ d.targets, (Part.tableName t).From good n.span) ∧ ∃ tables targets, d = {
        excerpt := c.excerptOf n
        tables
        targets
        condition := Reading.condition? roles reader n
        orderBy := Reading.unstructured? c n .orderByClause
        limit := Reading.limit? roles c n
        returning := none } := by
    unfold delete? at h
    dsimp only at h
    split at h
    · obtain ⟨tables, htables, h⟩ := Option.bind_eq_some_iff.1 h
      cases h
      refine ⟨singleTable?_from hc hn htables, ?_, _, _, rfl⟩
      simp
    · obtain ⟨tables, htables, h⟩ := Option.bind_eq_some_iff.1 h
      cases h
      refine ⟨tables_from hreader hn htables, ?_, _, _, rfl⟩
      intro name hname
      obtain ⟨m, hm, hread⟩ := List.mem_filterMap.1 hname
      have hcontains := Node.Contains.of_childrenOf hm
      exact (tableName?_from hc (hn.of_contains hcontains) hread).within (hn.within hcontains)
  obtain ⟨htables, htargets, _, _, rfl⟩ := htables
  apply Reading.delete_from hc hn.proper rfl htables htargets
  · exact fun _ => Reading.condition?_from hreader hn
  · exact Reading.tail_from hc (roles_sound hc) hn _
  · simp

theorem createDatabase?_from (hc : c.Cuts text good) (hn : (Element.node n).Laid text)
    {create : CreateDatabase} (h : createDatabase? c n = some create) :
    (Part.createDatabase create).From good n.span := by
  obtain ⟨name, _, h⟩ := Option.bind_eq_some_iff.1 h
  cases h
  exact .leaf hc hn.proper rfl rfl rfl

theorem manipulationOf_from (hc : c.Cuts text good) (hreader : reader.Sound text good)
    (hn : (Element.node n).Laid text) :
    (Part.statement (manipulationOf c reader n)).From good n.span := by
  unfold manipulationOf
  apply Reading.getD_from
  · intro s h
    obtain ⟨m, hm, h⟩ := Option.bind_eq_some_iff.1 h
    have hcontains := Node.Contains.of_firstChild? hm
    have hm := hn.of_contains hcontains
    have hselect : ∀ s, Statement.select <$> reader.select? m = some s →
        (Part.statement s).From good m.span := by
      intro s hs
      obtain ⟨select, hselect, rfl⟩ := Option.map_eq_some_iff.1 hs
      exact .same (hreader.select? hm hselect) rfl rfl rfl
    have hupdate : ∀ s, Statement.update <$> update? c reader m = some s →
        (Part.statement s).From good m.span := by
      intro s hs
      obtain ⟨update, hupdate, rfl⟩ := Option.map_eq_some_iff.1 hs
      exact .only (update?_from hc hreader hm hupdate) rfl rfl rfl
    have hdelete : ∀ s, Statement.delete <$> delete? c reader m = some s →
        (Part.statement s).From good m.span := by
      intro s hs
      obtain ⟨delete, hdelete, rfl⟩ := Option.map_eq_some_iff.1 hs
      exact .only (delete?_from hc hreader hm hdelete) rfl rfl rfl
    apply Part.From.within _ (hn.within hcontains)
    split at h
    · exact hselect s h
    · exact hselect s h
    · exact hselect s h
    · obtain ⟨insert, hinsert, rfl⟩ := Option.map_eq_some_iff.1 h
      exact .only (insert?_from hc hreader hm hinsert) rfl rfl rfl
    · exact hupdate s h
    · exact hupdate s h
    · exact hdelete s h
    · exact hdelete s h
    · contradiction
  · exact .only (Reading.unstructured_from hc hn) rfl rfl rfl

theorem statementOfFamily_from (hc : c.Cuts text good) (hreader : reader.Sound text good)
    (hn : (Element.node n).Laid text) :
    (Part.statement (statementOfFamily c reader n)).From good n.span := by
  have hread : ∀ m, n.Contains m →
      (Part.statement (.otherRead (c.unstructured m))).From good n.span := by
    intro m hcontains
    apply Part.From.within _ (hn.within hcontains)
    exact .only (Reading.unstructured_from hc (hn.of_contains hcontains)) rfl rfl rfl
  unfold statementOfFamily
  split
  · exact manipulationOf_from hc hreader hn
  · split
    · rename_i create hcreate
      obtain ⟨m, hm, h⟩ := Option.bind_eq_some_iff.1 hcreate
      have hcontains := Node.Contains.of_child? hm
      apply Part.From.within _ (hn.within hcontains)
      exact .only (createDatabase?_from hc (hn.of_contains hcontains) h) rfl rfl rfl
    · exact .only (Reading.unstructured_from hc hn) rfl rfl rfl
  · split
    · rename_i m hm
      exact hread m (.of_child? hm)
    · exact .only (Reading.unstructured_from hc hn) rfl rfl rfl
  · split
    · rename_i m hm
      exact hread m (.of_findChild? hm)
    · exact .only (Reading.unstructured_from hc hn) rfl rfl rfl
  · exact .only (Reading.unstructured_from hc hn) rfl rfl rfl

theorem statementOf_from (hc : c.Cuts text good) (hreader : reader.Sound text good)
    (hn : (Element.node n).Laid text) :
    (Part.statement (statementOf c reader n)).From good n.span := by
  unfold statementOf
  split
  · exact .only (.excerpt hc hn.proper) rfl rfl rfl
  · split
    · rename_i family hfamily
      have hcontains := Node.Contains.of_firstChild? hfamily
      exact (statementOfFamily_from hc hreader (hn.of_contains hcontains)).within
        (hn.within hcontains)
    · exact .only (Reading.unstructured_from hc hn) rfl rfl rfl

end

end SqlScript.MySql.Read

namespace SqlScript.MySql

open SqlScript.Tree

variable {c : Context} {text : List Char} {good : Excerpt → Prop}

def slots (root : Node Rule) : List (Node Rule) :=
  (root.child? .sqlStatements).toList.flatMap (·.childNodes)

theorem statementsOf_eq_slots (c : Context) (root : Node Rule) :
    statementsOf c root = (slots root).map (Read.statementOf c (.ofTree Read.roles c root)) := by
  unfold statementsOf slots
  cases root.child? .sqlStatements <;> simp

theorem statementsOf_nested (hc : c.Cuts text good) {root : Node Rule}
    (hroot : (Element.node root).Laid text) :
    (∀ s ∈ statementsOf c root, (Part.statement s).Nested good) ∧
      (statementsOf c root).Pairwise fun s t => s.excerpt.span.stop ≤ t.excerpt.span.start := by
  rw [statementsOf_eq_slots]
  exact Reading.statements_nested hroot
    (Read.statementOf_from hc (Reader.ofDepth_sound hc (Read.roles_sound hc) _))

end SqlScript.MySql
