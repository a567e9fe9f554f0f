import SqlScript.Proofs.Lineage.Statement
import SqlScript.Proofs.MySql.Lineage

/-!
The statements of a MySQL script tell all that the productions tell that they are read from.
-/

namespace SqlScript.MySql

open SqlScript.Tree (Node Element)

namespace Read

variable {c : Context} {text : List Char} {good : Excerpt → Prop} {reader : Reader Rule}
  {depth : Nat} {n m : Node Rule}

theorem values_told (hc : c.Cuts text good) (depth : Nat) :
    (Reader.ofDepth roles c depth).TellsValues roles lineage c text depth .defaultExpression where
  toTells := Reader.ofDepth_tells hc (roles_tells hc) depth
  kept {n} hn := by
    apply Reader.expression_ofDepth depth
    · change connectiveOf? c n = none
      unfold connectiveOf?
      rw [hn]
    · rw [hn]
      decide
  plain hn := plain_of_bare _ (by rw [hn]; decide)

section

variable (hc : c.Cuts text good)
  (hreader : reader.TellsValues roles lineage c text depth .defaultExpression)

include hc hreader

theorem assignmentsOf_tells (hn : n.Ready c text depth) :
    ((assignmentsOf c reader n).flatMap fun a => lineage.partMarks (.assignment a)) =
      (n.childrenOf .updatedElement).flatMap lineage.marks := by
  unfold assignmentsOf
  rw [List.filterMap_eq_flatMap_toList, List.flatMap_assoc]
  apply List.flatMap_congr
  intro m hm
  have hrule : m.rule = .updatedElement := eq_of_beq (Node.rule_of_mem_childrenThat hm)
  have hm := hn.below (Node.mem_childNodes_of_mem_childrenOf hm)
  obtain ⟨value, hvalue⟩ :=
    hm.formed.exists_child hrule (roles.isAssigned .defaultExpression) (by decide)
  obtain ⟨column, hcolumn⟩ := hm.formed.exists_child hrule (· == .fullColumnName) (by decide)
  have hmarks := Reading.value_tells hc hreader
    (hm.below (Node.mem_childNodes_of_findChild? hvalue)) (Node.rule_of_findChild? hvalue)
  have hvalue' : (m.findChild? fun rule => rule.isExpressionForm || rule == .defaultExpression) =
      some value := hvalue
  rw [Lineage.marks_singles hm.formed hrule [roles.isAssigned .defaultExpression] (by decide),
    hvalue']
  simp [Node.child?, hcolumn, hvalue, hmarks]

omit hreader in
theorem singleTable?_tells (hn : n.Genuine c text) (hm : n.child? .tableName = some m) :
    ∃ t, singleTable? c n = some t ∧ lineage.partMarks (.tables t) = lineage.marks m := by
  obtain ⟨table, htable, hmarks⟩ := tableName?_marks hc
    (hn.child (Node.mem_childNodes_of_child? hm)) (Node.rule_of_child? hm)
  rw [hmarks]
  unfold singleTable?
  rw [hm, Option.bind_eq_bind, Option.bind_some, htable]
  exact ⟨_, rfl, lineage.partMarks_lone _ _⟩

omit hc hreader in
theorem insertedValue_marks (hn : n.Formed) (hrule : n.rule = .insertStatementValue) :
    (∃ select, n.findChild? Rule.isSelectForm = some select ∧
        lineage.marks n = lineage.marks select) ∨
      n.findChild? Rule.isSelectForm = none ∧
        lineage.marks n = (n.childrenOf .expressionsWithDefaults).flatMap lineage.marks := by
  have hmarks := Lineage.marks_slots (L := lineage) hn hrule
    [Rule.isSelectForm, (· == .expressionsWithDefaults)] (by decide)
  simp only [List.flatMap_cons, List.flatMap_nil, List.append_nil] at hmarks
  rw [Lineage.told_of_single hn hrule Rule.isSelectForm (by decide)] at hmarks
  cases hselect : n.findChild? Rule.isSelectForm with
  | none =>
    rw [hselect, lineage.told_none, List.nil_append] at hmarks
    exact .inr ⟨rfl, hmarks⟩
  | some select =>
    have hexcludes : (shape .insertStatementValue).excludes Rule.isSelectForm
        (· == .expressionsWithDefaults) := by decide
    rw [hn.childrenThat_eq_nil hrule hexcludes hselect, hselect, lineage.told_some,
      List.flatMap_nil, List.append_nil] at hmarks
    exact .inl ⟨select, rfl, hmarks⟩

theorem insertSource?_tells (hn : n.Ready c text depth) (hrule : n.rule = .insertStatement) :
    ∃ source, insertSource? c reader n = some source ∧
      source.pieces.flatMap lineage.partMarks =
        (n.childrenOf .updatedElement).flatMap lineage.marks ++
          lineage.told (n.child? .insertStatementValue) := by
  unfold insertSource?
  cases hvalue : n.child? .insertStatementValue with
  | none =>
    refine ⟨_, rfl, ?_⟩
    simp only [InsertSource.pieces, List.flatMap_map, lineage.told_none, List.append_nil]
    exact assignmentsOf_tells hc hreader hn
  | some value =>
    have hnone : n.childrenOf .updatedElement = [] := by
      have hexcludes : (shape .insertStatement).excludes (· == .insertStatementValue)
          (· == .updatedElement) := by decide
      exact hn.formed.childrenThat_eq_nil hrule hexcludes hvalue
    have hready := hn.below (Node.mem_childNodes_of_child? hvalue)
    rw [hnone, lineage.told_some]
    obtain ⟨select, hselect, hmarks⟩ | ⟨hselect, hmarks⟩ :=
      insertedValue_marks hready.formed (Node.rule_of_child? hvalue)
    · obtain ⟨s, hs, htells⟩ := hreader.select?
        (hready.below (Node.mem_childNodes_of_findChild? hselect))
        (Node.rule_of_findChild? hselect)
      dsimp only
      rw [hselect, hmarks, ← htells]
      dsimp only
      rw [hs]
      exact ⟨_, rfl, by simp [InsertSource.pieces]⟩
    · dsimp only
      rw [hselect, hmarks]
      refine ⟨_, rfl, Reading.rows_tells hc hreader _ .expressionsWithDefaults (by decide) ?_⟩
      intro row hrow
      exact ⟨hready.below (Node.mem_childNodes_of_mem_childrenOf hrow),
        eq_of_beq (Node.rule_of_mem_childrenThat hrow)⟩

theorem insert?_tells (hn : n.Ready c text depth) (hrule : n.rule = .insertStatement) :
    ∃ i, insert? c reader n = some i ∧ lineage.partMarks (.insert i) = lineage.marks n := by
  obtain ⟨source, hsource, hsourceMarks⟩ := insertSource?_tells hc hreader hn hrule
  obtain ⟨m, hm⟩ := hn.formed.exists_child hrule (· == .tableName) (by decide)
  obtain ⟨table, htable, htableMarks⟩ := tableName?_marks hc
    (hn.toGenuine.child (Node.mem_childNodes_of_findChild? hm)) (Node.rule_of_child? hm)
  have hduplicate : (((n.child? .duplicateKeyUpdate).map (assignmentsOf c reader)).getD []).flatMap
      (fun a => lineage.partMarks (.assignment a)) =
        lineage.told (n.child? .duplicateKeyUpdate) := by
    cases hk : n.child? .duplicateKeyUpdate with
    | none => rfl
    | some k =>
      have hready := hn.below (Node.mem_childNodes_of_child? hk)
      rw [lineage.told_some, Lineage.marks_slots hready.formed (Node.rule_of_child? hk)
        [(· == .updatedElement)] (by decide)]
      rw [List.flatMap_singleton]
      exact assignmentsOf_tells hc hreader hready
  have hread : n.child? .tableName >>= tableName? c = some table :=
    Option.bind_eq_some_iff.2 ⟨m, hm, htable⟩
  have hmarks := Lineage.marks_slots (L := lineage) hn.formed hrule
    [(· == .tableName), (· == .updatedElement), (· == .insertStatementValue),
      (· == .duplicateKeyUpdate)] (by decide)
  simp only [List.flatMap_cons, List.flatMap_nil, List.append_nil] at hmarks
  rw [Lineage.told_of_single hn.formed hrule (· == .tableName) (by decide),
    Lineage.told_of_single hn.formed hrule (· == .insertStatementValue) (by decide),
    Lineage.told_of_single hn.formed hrule (· == .duplicateKeyUpdate) (by decide), hm,
    lineage.told_some, htableMarks] at hmarks
  unfold insert?
  rw [hsource, hread]
  refine ⟨_, rfl, ?_⟩
  rw [lineage.partMarks_insert, hmarks]
  dsimp only
  rw [hduplicate, hsourceMarks]
  simp [Part.optional, Node.child?, Node.childrenOf]

omit hc hreader in
theorem change_marks {rule : Rule} (hn : n.Formed) (hrule : n.rule = rule)
    (slots : List (Rule → Bool))
    (h : lineage.whole rule ∧ (shape rule).fits lineage.bare
      (slots ++ [Rule.isExpressionForm, (· == .orderByClause), (· == .limitClause)]) ∧
      (shape rule).single Rule.isExpressionForm ∧ (shape rule).single (· == .orderByClause) ∧
      (shape rule).single (· == .limitClause)) :
    lineage.marks n =
      (slots.flatMap fun slot => (n.childrenThat slot).flatMap lineage.marks) ++
        lineage.told (n.findChild? Rule.isExpressionForm) ++
        (lineage.told (n.child? .orderByClause) ++ lineage.told (n.child? .limitClause)) := by
  obtain ⟨hwhole, hfits, hcondition, horder, hlimit⟩ := h
  rw [Lineage.marks_slots hn hrule _ ⟨hwhole, hfits⟩]
  simp only [List.flatMap_append, List.flatMap_cons, List.flatMap_nil, List.append_nil]
  rw [Lineage.told_of_single hn hrule _ hcondition, Lineage.told_of_single hn hrule _ horder,
    Lineage.told_of_single hn hrule _ hlimit, List.append_assoc]
  rfl

theorem ending_tells (hn : n.Ready c text depth) :
    (Part.optional .expr (Reading.condition? roles reader n)).flatMap lineage.partMarks =
        lineage.told (n.findChild? Rule.isExpressionForm) ∧
      (Part.tail (Reading.unstructured? c n .orderByClause) (Reading.limit? roles c n)).flatMap
          lineage.partMarks =
        lineage.told (n.child? .orderByClause) ++ lineage.told (n.child? .limitClause) := by
  constructor
  · rw [lineage.flatMap_optional]
    exact Reading.condition?_tells hreader.toTells hn
  · have htail := Reading.tail_tells hc (roles_tells hc) hn.laid
    exact htail

theorem update?_tells (hn : n.Ready c text depth)
    (hrule : n.rule = .singleUpdateStatement ∨ n.rule = .multipleUpdateStatement) :
    ∃ u, update? c reader n = some u ∧ lineage.partMarks (.update u) = lineage.marks n := by
  have hparts : ∃ t, update? c reader n = some {
        excerpt := c.excerptOf n
        tables := t
        assignments := assignmentsOf c reader n
        condition := Reading.condition? roles reader n
        orderBy := Reading.unstructured? c n .orderByClause
        limit := Reading.limit? roles c n
        returning := none } ∧
      lineage.marks n = lineage.partMarks (.tables t) ++
        (n.childrenOf .updatedElement).flatMap lineage.marks ++
        lineage.told (n.findChild? Rule.isExpressionForm) ++
        (lineage.told (n.child? .orderByClause) ++ lineage.told (n.child? .limitClause)) := by
    unfold update?
    obtain h | h := hrule
    · obtain ⟨m, hm⟩ := hn.formed.exists_child h (· == .tableName) (by decide)
      obtain ⟨t, ht, htables⟩ := singleTable?_tells hc hn.toGenuine hm
      refine ⟨t, by rw [if_pos h, ht]; rfl, ?_⟩
      rw [change_marks hn.formed h [(· == .tableName), (· == .updatedElement)] (by decide), htables]
      simp [Lineage.told_of_single hn.formed h (· == .tableName) (by decide), hm, Node.childrenOf]
    · obtain ⟨m, hm⟩ := hn.formed.exists_child h (· == .tableSources) (by decide)
      have htables := hreader.tables (hn.below (Node.mem_childNodes_of_findChild? hm))
        (Node.rule_of_child? hm)
      refine ⟨reader.tables m, by rw [if_neg (by rw [h]; decide), Node.child?, hm]; rfl, ?_⟩
      rw [change_marks hn.formed h [(· == .tableSources), (· == .updatedElement)] (by decide),
        htables]
      simp [Lineage.told_of_single hn.formed h (· == .tableSources) (by decide), hm, Node.childrenOf]
  obtain ⟨t, ht, hmarks⟩ := hparts
  refine ⟨_, ht, ?_⟩
  rw [lineage.partMarks_update, hmarks]
  dsimp only
  obtain ⟨hcondition, htail⟩ := ending_tells hc hreader hn
  rw [assignmentsOf_tells hc hreader hn, hcondition, htail]
  simp [Part.optional]

omit hreader in
theorem targets_tells (hn : n.Genuine c text) :
    (((n.childrenOf .tableName).filterMap (tableName? c)).flatMap fun name =>
        [Mark.table name.excerpt.span]) =
      (n.childrenOf .tableName).flatMap lineage.marks := by
  rw [List.filterMap_eq_flatMap_toList, List.flatMap_assoc]
  apply List.flatMap_congr
  intro m hm
  obtain ⟨name, hname, hmarks⟩ := tableName?_marks hc
    (hn.child (Node.mem_childNodes_of_mem_childrenOf hm))
    (eq_of_beq (Node.rule_of_mem_childrenThat hm))
  rw [hname, hmarks]
  rfl

theorem delete?_tells (hn : n.Ready c text depth)
    (hrule : n.rule = .singleDeleteStatement ∨ n.rule = .multipleDeleteStatement) :
    ∃ d, delete? c reader n = some d ∧ lineage.partMarks (.delete d) = lineage.marks n := by
  have hparts : ∃ t targets, delete? c reader n = some {
        excerpt := c.excerptOf n
        tables := t
        targets
        condition := Reading.condition? roles reader n
        orderBy := Reading.unstructured? c n .orderByClause
        limit := Reading.limit? roles c n
        returning := none } ∧
      lineage.marks n = (targets.flatMap fun name => [.table name.excerpt.span]) ++
        lineage.partMarks (.tables t) ++ lineage.told (n.findChild? Rule.isExpressionForm) ++
        (lineage.told (n.child? .orderByClause) ++ lineage.told (n.child? .limitClause)) := by
    unfold delete?
    obtain h | h := hrule
    · obtain ⟨m, hm⟩ := hn.formed.exists_child h (· == .tableName) (by decide)
      obtain ⟨t, ht, htables⟩ := singleTable?_tells hc hn.toGenuine hm
      refine ⟨t, [], by simp [h, ht], ?_⟩
      rw [change_marks hn.formed h [(· == .tableName)] (by decide), htables]
      simp [Lineage.told_of_single hn.formed h (· == .tableName) (by decide), hm]
    · obtain ⟨m, hm⟩ := hn.formed.exists_child h (· == .tableSources) (by decide)
      have htables := hreader.tables (hn.below (Node.mem_childNodes_of_findChild? hm))
        (Node.rule_of_child? hm)
      refine ⟨reader.tables m, (n.childrenOf .tableName).filterMap (tableName? c),
        by simp [h, Node.child?, hm], ?_⟩
      rw [change_marks hn.formed h [(· == .tableName), (· == .tableSources)] (by decide),
        htables, targets_tells hc hn.toGenuine]
      simp [Lineage.told_of_single hn.formed h (· == .tableSources) (by decide), hm, Node.childrenOf]
  obtain ⟨t, targets, ht, hmarks⟩ := hparts
  refine ⟨_, ht, ?_⟩
  rw [lineage.partMarks_delete, hmarks]
  dsimp only
  obtain ⟨hcondition, htail⟩ := ending_tells hc hreader hn
  rw [hcondition, htail]
  simp [Part.optional]

theorem manipulationOf_tells (hn : n.Ready c text depth) (hrule : n.rule = .dmlStatement) :
    lineage.partMarks (.statement (manipulationOf c reader n)) = lineage.marks n := by
  have h := hn.formed.matches_children
  rw [hrule] at h
  obtain ⟨m, hchildren, hm, -⟩ | h := h
  · have hnodes : n.childNodes = [m] := by
      rw [Node.childNodes_eq, hchildren]
      rfl
    have hmem : m ∈ n.childNodes := by
      rw [hnodes]
      exact List.mem_singleton_self m
    have hmarks : lineage.marks n = lineage.marks m := by
      have hlook : lineage.look n = .inside :=
        (if_neg (by simp [isUnparsed_of_mem hmem])).trans ((congrArg look hrule).trans (by decide))
      rw [Lineage.marks_inside hlook]
      change (shown n).flatMap lineage.marks = _
      rw [shown, if_neg (by rw [hrule]; decide), hnodes, List.flatMap_singleton]
    have hready : m.Ready c text depth := hn.below hmem
    have hselect : Rule.isSelectForm m.rule → ∃ s, reader.select? m = some s ∧
        lineage.partMarks (.select s) = lineage.marks m := hreader.select? hready
    rw [hmarks]
    unfold manipulationOf Node.firstChild?
    rw [hnodes]
    simp only [changes, updates, deletes, selects, List.cons_append, List.nil_append, List.mem_cons,
      List.not_mem_nil, or_false] at hm
    rcases hm with h | h | h | h | h | h | h | h
    · obtain ⟨i, hi, htells⟩ := insert?_tells hc hreader hready h
      simp [h, hi, htells]
    · obtain ⟨u, hu, htells⟩ := update?_tells hc hreader hready (.inl h)
      simp [h, hu, htells]
    · obtain ⟨u, hu, htells⟩ := update?_tells hc hreader hready (.inr h)
      simp [h, hu, htells]
    · obtain ⟨d, hd, htells⟩ := delete?_tells hc hreader hready (.inl h)
      simp [h, hd, htells]
    · obtain ⟨d, hd, htells⟩ := delete?_tells hc hreader hready (.inr h)
      simp [h, hd, htells]
    all_goals
      obtain ⟨s, hs, htells⟩ := hselect (by rw [h]; decide)
      simp [h, hs, htells]
  · -- A statement that is not parsed is kept as text, and that is all that it tells.
    have hnodes : n.childNodes = [] := by
      rw [Node.childNodes_eq]
      exact Tree.nodesOf_eq_nil h.1
    have hlook : lineage.look n = .text := if_pos (by simp [isUnparsed, hrule, hnodes])
    have hplain : lineage.Plain n := by
      unfold Lineage.Plain
      rw [lineage_hears, hrule, Lineage.marks_text hlook, hrule]
      rfl
    unfold manipulationOf Node.firstChild?
    rw [hnodes]
    change lineage.partMarks (.statement (.manipulation (c.unstructured n))) = _
    rw [lineage.partMarks_only rfl rfl]
    exact Reading.plain_tells hc hn.laid hplain

theorem statementOfFamily_tells (hn : n.Ready c text depth) (hrule : n.rule ∈ families) :
    lineage.partMarks (.statement (statementOfFamily c reader n)) = lineage.marks n := by
  have hbare : n.rule ≠ .dmlStatement → lineage.bare n.rule := by
    have hfamilies : ∀ rule ∈ families, rule ≠ .dmlStatement → lineage.bare rule := by decide
    exact hfamilies _ hrule
  have hkept : ∀ {m : Node Rule}, m ∈ n.childNodes → lineage.bare m.rule →
      lineage.partMarks (.statement (.otherRead (c.unstructured m))) = [] :=
    fun hm h => Reading.kept_tells hc (hn.toGenuine.child hm) (plain_of_bare _ h) h rfl rfl
  unfold statementOfFamily
  split
  · rename_i h
    exact manipulationOf_tells hc hreader hn h
  · rename_i h
    have hn' := hbare (by rw [h]; decide)
    rw [lineage.marks_eq_nil n hn']
    split
    · exact lineage.partMarks_createDatabase _
    · exact Reading.kept_tells hc hn.toGenuine (plain_of_bare _ hn') hn' rfl rfl
  · rename_i h
    have hn' := hbare (by rw [h]; decide)
    rw [lineage.marks_eq_nil n hn']
    split
    · rename_i m hm
      exact hkept (Node.mem_childNodes_of_child? hm) (by rw [Node.rule_of_child? hm]; decide)
    · exact Reading.kept_tells hc hn.toGenuine (plain_of_bare _ hn') hn' rfl rfl
  · rename_i h
    have hn' := hbare (by rw [h]; decide)
    rw [lineage.marks_eq_nil n hn']
    split
    · rename_i m hm
      have hdescribes : ∀ rule ∈ Rule.all, (rule == .simpleDescribeStatement ||
          rule == .fullDescribeStatement) → lineage.bare rule := by decide
      exact hkept (Node.mem_childNodes_of_findChild? hm)
        (hdescribes _ m.rule.mem_all (Node.rule_of_findChild? hm))
    · exact Reading.kept_tells hc hn.toGenuine (plain_of_bare _ hn') hn' rfl rfl
  · rename_i hdml _ _ _
    have hn' := hbare hdml
    rw [lineage.marks_eq_nil n hn']
    exact Reading.kept_tells hc hn.toGenuine (plain_of_bare _ hn') hn' rfl rfl

theorem statementOf_tells (hn : n.Ready c text depth)
    (hrule : n.rule = .emptyStatement ∨ n.rule = .sqlStatement) :
    lineage.partMarks (.statement (statementOf c reader n)) = lineage.marks n := by
  unfold statementOf
  obtain h | h := hrule
  · rw [lineage.marks_eq_nil n (by rw [h]; decide), h]
    exact lineage.partMarks_empty _
  · obtain ⟨m, hm⟩ := hn.formed.exists_child h families.contains (by decide)
    have hfirst := hn.formed.firstChild?_eq h families.contains (by decide)
    rw [Lineage.marks_singles hn.formed h [families.contains] (by decide), h, hfirst, hm]
    simpa [hm] using statementOfFamily_tells hc hreader
      (hn.below (Node.mem_childNodes_of_findChild? hm))
      (List.contains_iff_mem.1 (Node.rule_of_findChild? hm))

end

end Read

end SqlScript.MySql
