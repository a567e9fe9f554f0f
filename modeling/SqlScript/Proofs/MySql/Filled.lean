import SqlScript.Proofs.Filled
import SqlScript.Proofs.MySql.Mirror

/-!
Nothing is missing in the statements of a MySQL script.
-/

namespace SqlScript.MySql

open SqlScript.Tree (Node Element)

variable {c : Context} {root : Node Rule} {text : List Char} {good : Excerpt → Prop}
  {n m : Node Rule} {p : Part}

namespace Read

theorem tableName?_filled (hn : n.Genuine c text) {name : TableName}
    (h : tableName? c n = some name) : name.Filled := by
  obtain ⟨m, hm, rfl⟩ := Option.map_eq_some_iff.1 h
  exact ((hn.of_contains (.of_child? hm)).dottedName_filled (Node.rule_of_child? hm)
    rfl).toTableName

theorem columnName_filled (hn : n.Genuine c text) (hm : n.child? .fullColumnName = some m) :
    (columnName c m).Filled :=
  ((hn.of_contains (.of_child? hm)).dottedName_filled (Node.rule_of_child? hm) rfl).toColumnName

theorem selectElement?_filled (hn : n.Genuine c text) {e : SelectElement}
    (h : selectElement? c n = some e) : ∀ q ∈ (Part.element e).names, q.Filled := by
  unfold selectElement? at h
  split at h
  · cases h
    refine Part.forall_mem_optional.2 fun name hname => ?_
    obtain ⟨m, hm, rfl⟩ := Option.map_eq_some_iff.1 hname
    exact (hn.of_contains (.of_child? hm)).dottedName_filled (Node.rule_of_child? hm) rfl
  · obtain ⟨column, hcolumn, h⟩ := Option.bind_eq_some_iff.1 h
    cases h
    exact List.forall_mem_singleton.2 (columnName_filled hn hcolumn)
  · cases h
    exact List.forall_mem_nil _
  · cases h
    exact List.forall_mem_nil _
  · contradiction

theorem atom_filled (hn : n.Genuine c text) : ∀ q ∈ (Part.atom (atom c n)).names, q.Filled := by
  unfold atom
  split
  · cases n.child? .constant <;> exact List.forall_mem_nil _
  · cases h : n.child? .fullColumnName with
    | none => exact List.forall_mem_nil _
    | some m => exact List.forall_mem_singleton.2 (columnName_filled hn h)
  · exact List.forall_mem_nil _

end Read

theorem mirror_fills (hroot : root.Genuine c text) : (mirror c).Fills root where
  formed := hroot.formed
  elements hn hrule := hn.star_or_childNodes_ne_nil hrule rfl
  lists := by
    change ∀ rule ∈ [Rule.tableSources, .uidList, .expressions], Grammar.nests rule
    decide
  element hn h := Read.selectElement?_filled (hroot.of_contains hn) h
  namedTable hn h := by
    obtain ⟨name, hname, h⟩ := Option.bind_eq_some_iff.1 h
    cases h
    obtain ⟨m, hm, hread⟩ := Option.bind_eq_some_iff.1 hname
    exact Read.tableName?_filled (hroot.of_contains (hn.trans (.of_child? hm))) hread
  atom hn := Read.atom_filled (hroot.of_contains hn)

theorem MirrorsSource.filled {source : InsertSource} (h : MirrorsSource c n source)
    (hn : n.Formed) (hrule : n.rule = .insertStatement) : source.Filled := by
  cases h with
  | @values rows m hchild _ hnone himage =>
    -- Rows are all that is left, for there is no select.
    have hrows : (shape .insertStatementValue).requires
        fun rule => Rule.isSelectForm rule || rule == .expressionsWithDefaults := by decide
    have hformed := hn.child (Node.mem_childNodes_of_child? hchild)
    obtain ⟨row, hrow⟩ := hformed.exists_child (Node.rule_of_child? hchild) _ hrows
    have hmem := Node.mem_childNodes_of_findChild? hrow
    have hkind := Node.rule_of_findChild? hrow
    rw [Bool.or_eq_true] at hkind
    have hdefaults := hkind.resolve_left (List.find?_eq_none.1 hnone row hmem)
    exact ne_nil_of_forall₂ himage (List.ne_nil_of_mem (List.mem_filter.2 ⟨hmem, hdefaults⟩))
  | select => trivial
  | @set as hchild hassignments =>
    have hset : (shape .insertStatement).requires
        fun rule => rule == .insertStatementValue || rule == .updatedElement := by decide
    obtain ⟨m, hm⟩ := hn.exists_child hrule _ hset
    have hmem := Node.mem_childNodes_of_findChild? hm
    have hkind := Node.rule_of_findChild? hm
    rw [Bool.or_eq_true] at hkind
    have hupdated := hkind.resolve_left (List.find?_eq_none.1 hchild m hmem)
    exact ne_nil_of_forall₂ hassignments (List.ne_nil_of_mem (List.mem_filter.2 ⟨hmem, hupdated⟩))

theorem MirrorsUpdate.assignments_ne_nil {u : Update} (h : MirrorsUpdate c u n) (hn : n.Formed) :
    u.assignments ≠ [] := by
  have hrules : ∀ rule ∈ updates, (shape rule).requires (· == .updatedElement) := by decide
  obtain ⟨m, hm⟩ := hn.exists_child rfl _ (hrules _ h.rule)
  exact ne_nil_of_forall₂ h.assignments (List.ne_nil_of_mem
    (List.mem_filter.2 ⟨Node.mem_childNodes_of_findChild? hm, Node.rule_of_findChild? hm⟩))

theorem Whole.filled (hn : n.Genuine c text) (h : Whole c p n) :
    p.Filled ∧ ∀ q ∈ p.names, q.Filled := by
  have htable {m : Node Rule} {name : TableName} (hm : n.child? .tableName = some m)
      (hread : Read.tableName? c m = some name) : name.Filled :=
    Read.tableName?_filled (hn.of_contains (.of_child? hm)) hread
  cases p with
  | insert i =>
    obtain ⟨m, hm, hread⟩ := MirrorsInsert.table h
    exact ⟨(MirrorsInsert.source h).filled hn.formed (MirrorsInsert.rule h),
      List.forall_mem_singleton.2 (htable hm hread)⟩
  | update u => exact ⟨MirrorsUpdate.assignments_ne_nil h hn.formed, List.forall_mem_nil _⟩
  | delete d =>
    refine ⟨trivial, List.forall_mem_map.2 fun name hname => ?_⟩
    obtain ⟨m, hm, hread⟩ := exists_of_forall₂ (MirrorsDelete.targets h) hname
    split at hm
    · contradiction
    · exact Read.tableName?_filled (hn.of_contains (.of_childrenOf hm)) hread
  | assignment a =>
    obtain ⟨m, hm, hcolumn⟩ := MirrorsAssignment.column h
    refine ⟨trivial, List.forall_mem_singleton.2 ?_⟩
    exact hcolumn ▸ Read.columnName_filled hn hm
  | tables ts =>
    obtain ⟨t, -, rfl⟩ := h
    exact ⟨List.cons_ne_nil _ _, List.forall_mem_nil _⟩
  | item i =>
    obtain ⟨t, ht, rfl⟩ := h
    obtain ⟨m, hm, hread, -⟩ := ht.name
    exact ⟨trivial, List.forall_mem_singleton.2 (htable hm hread)⟩
  | statement | source => exact ⟨trivial, List.forall_mem_nil _⟩
  | _ => contradiction

theorem statementsOf_filled (hc : c.Cuts text good) (hroot : root.Genuine c text) :
    ∀ s ∈ statementsOf c root, ∀ p ∈ s.parts, p.Filled := by
  intro s hs
  obtain ⟨n, hn, hagrees⟩ := exists_of_forall₂ (statementsOf_agree hc hroot).flip hs
  exact wholes.filled (mirror_fills hroot) (fun hn h => h.filled (hroot.of_contains hn))
    (Node.contains_of_mem_slots hn) hagrees.whole

end SqlScript.MySql
