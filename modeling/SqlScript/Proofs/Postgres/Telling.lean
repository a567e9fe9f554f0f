import SqlScript.Proofs.Lineage.Statement
import SqlScript.Proofs.Postgres.Lineage

/-!
The statements of a PostgreSQL script tell all that the productions tell that they are read from.
-/

namespace SqlScript.Postgres

open SqlScript.Tree (Node Element)

namespace Read

variable {c : Context} {text : List Char} {good : Excerpt → Prop} {reader : Reader Rule}
  {depth : Nat} {n m : Node Rule}

theorem values_told (hc : c.Cuts text good) (depth : Nat) :
    (Reader.ofDepth roles c depth).TellsValues roles lineage c text depth .setToDefault where
  toTells := Reader.ofDepth_tells hc (roles_tells hc) depth
  kept {n} hn := by
    apply Reader.expression_ofDepth depth
    · change connectiveOf? n = none
      unfold connectiveOf?
      rw [hn]
    · rw [hn]
      decide
  plain hn := plain_of_bare _ (by rw [hn]; decide)

section

variable (hc : c.Cuts text good)
  (hreader : reader.TellsValues roles lineage c text depth .setToDefault)

include hc hreader

theorem singleAssignment?_tells (hn : n.Ready c text depth) (hrule : n.rule = .setClause) :
    ((singleAssignment? c reader n).toList.flatMap fun a => lineage.partMarks (.assignment a)) =
      lineage.marks n := by
  obtain ⟨target, htarget⟩ := hn.formed.exists_child hrule (· == .setTarget) (by decide)
  obtain ⟨column, hcolumn⟩ := exists_targetColumn (c := c)
    (hn.formed.child (Node.mem_childNodes_of_findChild? htarget)) (Node.rule_of_child? htarget)
  obtain ⟨value, hvalue, hmarks⟩ := Lineage.marks_only (L := lineage) hn.formed hrule
    (roles.isAssigned .setToDefault) (by decide)
  have htells := Reading.value_tells hc hreader
    (hn.below (Node.mem_childNodes_of_findChild? hvalue)) (Node.rule_of_findChild? hvalue)
  have hread : singleAssignment? c reader n =
      some ⟨c.excerptOf n, column, reader.expression value⟩ := by
    refine Option.bind_eq_some_iff.2 ⟨target, htarget, ?_⟩
    refine Option.bind_eq_some_iff.2 ⟨column, hcolumn, ?_⟩
    exact Option.bind_eq_some_iff.2 ⟨value, hvalue, rfl⟩
  rw [hread, hmarks, ← htells]
  simp

omit hc in
theorem multiAssignments_tells (hn : n.Ready c text depth) (hrule : n.rule = .multiSetClause) :
    ((multiAssignments c reader n).flatMap fun a => lineage.partMarks (.assignment a)) =
      lineage.marks n := by
  have hlook : lineage.look n = .inside :=
    (look_eq (by rw [hrule]; decide)).trans ((congrArg look hrule).trans (by decide))
  have hshown : lineage.shown n = (pairedTargets n).map (·.2) := by
    change shown n = _
    unfold shown
    rw [hrule]
  rw [Lineage.marks_inside hlook, hshown, List.flatMap_map]
  unfold multiAssignments
  rw [List.filterMap_eq_flatMap_toList, List.flatMap_assoc]
  apply List.flatMap_congr
  rintro ⟨target, value⟩ hpair
  obtain ⟨htarget, whole, hwhole, hvalue⟩ := cases_of_mem_pairedTargets hpair
  obtain ⟨column, hcolumn⟩ := exists_targetColumn (c := c)
    (hn.formed.child (Node.mem_childNodes_of_mem_childrenOf htarget))
    (eq_of_beq (Node.rule_of_mem_childrenThat htarget))
  have hexpression : Rule.isExpressionForm value.rule := by
    obtain rfl | ⟨row, -, -, hmem⟩ := hvalue
    · exact Node.rule_of_findChild? hwhole
    · exact Node.rule_of_mem_childrenThat hmem
  have htells := hreader.expression
    (hn.of_contains (contains_of_mem_pairedTargets hpair).2) hexpression
  dsimp only
  rw [hcolumn, ← htells]
  simp

theorem assignmentsOf_tells (hn : n.Ready c text depth) :
    ((assignmentsOf c reader n).flatMap fun a => lineage.partMarks (.assignment a)) =
      (n.childrenThat isSetClause).flatMap lineage.marks := by
  unfold assignmentsOf Node.childrenThat
  rw [Shape.flatMap_filter, List.flatMap_assoc]
  apply List.flatMap_congr
  intro m hm
  have hm := hn.below hm
  split
  · rename_i h
    rw [singleAssignment?_tells hc hreader hm h, if_pos (by rw [h]; decide)]
  · rename_i h
    rw [multiAssignments_tells hreader hm h, if_pos (by rw [h]; decide)]
  · rename_i hsingle hmulti
    rw [if_neg (by simpa [isSetClause] using ⟨hsingle, hmulti⟩)]
    rfl

theorem changedTables?_tells (hn : n.Ready c text depth) (clause : Rule)
    (hclause : lineage.singly clause [(· == .fromList)])
    (hm : n.child? .relationRef = some m) :
    ∃ t, changedTables? c reader n clause = some t ∧
      lineage.partMarks (.tables t) = lineage.marks m ++ lineage.told (n.child? clause) := by
  obtain ⟨table, htable, hmarks⟩ := namedTable_marks hc
    (hn.toGenuine.child (Node.mem_childNodes_of_child? hm)) (Node.rule_of_child? hm)
  have hlist : lineage.told (n.child? clause) =
      lineage.told (n.child? clause >>= (·.child? .fromList)) := by
    apply lineage.told_eq_bind
    intro k hk
    rw [Lineage.marks_singles (hn.formed.child (Node.mem_childNodes_of_child? hk))
      (Node.rule_of_child? hk) _ hclause]
    simp [Node.child?]
  unfold changedTables?
  rw [hm, Option.bind_eq_bind, Option.bind_some, htable, hlist, hmarks]
  dsimp only
  cases hread : n.child? clause >>= (·.child? .fromList) with
  | none =>
    refine ⟨_, rfl, ?_⟩
    rw [lineage.partMarks_lone]
    simp
  | some list =>
    obtain ⟨k, hk, hlistIn⟩ := Option.bind_eq_some_iff.1 hread
    have htables := hreader.tables ((hn.below (Node.mem_childNodes_of_child? hk)).below
      (Node.mem_childNodes_of_child? hlistIn)) (Node.rule_of_child? hlistIn)
    refine ⟨_, rfl, ?_⟩
    rw [lineage.told_some, ← htables, lineage.partMarks_tables, lineage.partMarks_tables]
    simp [lineage.partMarks_namedSource]

omit hc in
theorem rowCondition?_tells (hn : n.Ready c text depth) :
    (Part.optional .expr (rowCondition? reader n)).flatMap lineage.partMarks =
      lineage.told (n.child? .whereClause) := by
  have hwhere : lineage.told (n.child? .whereClause) =
      lineage.told (n.child? .whereClause >>= (·.findChild? Rule.isExpressionForm)) := by
    apply lineage.told_eq_bind
    intro k hk
    rw [Lineage.marks_singles (hn.formed.child (Node.mem_childNodes_of_child? hk))
      (Node.rule_of_child? hk) [Rule.isExpressionForm] (by decide)]
    simp
  rw [lineage.flatMap_optional, hwhere]
  unfold rowCondition?
  cases hk : n.child? .whereClause with
  | none => rfl
  | some k =>
    exact Reading.condition?_tells hreader.toTells (hn.below (Node.mem_childNodes_of_child? hk))

omit hreader in
theorem clause_tells (hn : n.Genuine c text) {clause : Rule} (hbare : lineage.bare clause) :
    (Part.optional .unstructured (Reading.unstructured? c n clause)).flatMap lineage.partMarks =
      [] := by
  rw [lineage.flatMap_optional, Reading.unstructured?_tells hc hn.laid fun m hm =>
    plain_of_bare m (by rw [hm]; exact hbare)]
  cases hm : n.child? clause with
  | none => rfl
  | some m =>
    rw [lineage.told_some, lineage.marks_eq_nil m (by rw [Node.rule_of_child? hm]; exact hbare)]

theorem update?_tells (hn : n.Ready c text depth) (hrule : n.rule = .updateStmt) :
    ∃ u, update? c reader n = some u ∧ lineage.partMarks (.update u) = lineage.marks n := by
  obtain ⟨m, hm⟩ := hn.formed.exists_child hrule (· == .relationRef) (by decide)
  obtain ⟨t, ht, htables⟩ := changedTables?_tells hc hreader hn .fromClause (by decide) hm
  have hlook : lineage.look n = .inside :=
    (look_eq (by rw [hrule]; decide)).trans ((congrArg look hrule).trans (by decide))
  have hshown : lineage.shown n = n.childrenOf .relationRef ++ n.childrenOf .fromClause ++
      n.childrenThat isSetClause ++ n.childrenOf .whereClause := by
    change shown n = _
    unfold shown
    rw [hrule]
  refine ⟨_, Option.bind_eq_some_iff.2 ⟨t, ht, rfl⟩, ?_⟩
  rw [lineage.partMarks_update, Lineage.marks_inside hlook, hshown]
  dsimp only
  rw [htables, assignmentsOf_tells hc hreader hn, rowCondition?_tells hreader hn,
    clause_tells hc hn.toGenuine (by decide)]
  simp only [List.flatMap_append, Node.childrenOf]
  rw [Lineage.told_of_single hn.formed hrule (· == .relationRef) (by decide),
    Lineage.told_of_single hn.formed hrule (· == .fromClause) (by decide),
    Lineage.told_of_single hn.formed hrule (· == .whereClause) (by decide), hm]
  simp [Part.tail, Part.optional, Node.child?]

theorem delete?_tells (hn : n.Ready c text depth) (hrule : n.rule = .deleteStmt) :
    ∃ d, delete? c reader n = some d ∧ lineage.partMarks (.delete d) = lineage.marks n := by
  obtain ⟨m, hm⟩ := hn.formed.exists_child hrule (· == .relationRef) (by decide)
  obtain ⟨t, ht, htables⟩ := changedTables?_tells hc hreader hn .usingClause (by decide) hm
  refine ⟨_, Option.bind_eq_some_iff.2 ⟨t, ht, rfl⟩, ?_⟩
  rw [lineage.partMarks_delete, Lineage.marks_singles hn.formed hrule
    [(· == .relationRef), (· == .usingClause), (· == .whereClause)] (by decide)]
  dsimp only
  rw [htables, rowCondition?_tells hreader hn, clause_tells hc hn.toGenuine (by decide)]
  simp [Part.tail, Part.optional, Node.child?, hm]

theorem insertSource?_tells (hn : n.Ready c text depth) (hrule : n.rule = .insertStmt) :
    ∃ source m, insertSource? c reader n = some source ∧ n.findChild? isInserted = some m ∧
      source.pieces.flatMap lineage.partMarks = lineage.marks m := by
  obtain ⟨m, hm⟩ := hn.formed.exists_child hrule isInserted (by decide)
  have hready := hn.below (Node.mem_childNodes_of_findChild? hm)
  have hfind : ∀ q : Rule → Bool, (∀ rule, q rule → isInserted rule) →
      n.findChild? q = if q m.rule then some m else none :=
    fun q => hn.formed.findChild?_of_single (by rw [hrule]; decide) hm
  have hvalues : n.child? .valuesClause = if m.rule == .valuesClause then some m else none :=
    hfind _ fun rule h => by simp [isInserted, eq_of_beq h]
  have hdefaults : n.child? .defaultValues = if m.rule == .defaultValues then some m else none :=
    hfind _ fun rule h => by simp [isInserted, eq_of_beq h]
  have hselect : n.findChild? Rule.isSelectForm =
      if Rule.isSelectForm m.rule then some m else none :=
    hfind _ fun rule h => by simp [isInserted, h]
  have hkind := Node.rule_of_findChild? hm
  simp only [isInserted, Bool.or_eq_true, beq_iff_eq] at hkind
  unfold insertSource?
  rw [hvalues, hdefaults, hselect]
  obtain (h | h) | h := hkind
  · simp only [h, beq_self_eq_true, if_true]
    refine ⟨_, m, rfl, hm, ?_⟩
    rw [Reading.rows_tells hc hreader _ .valuesRow (by decide) fun row hrow =>
      ⟨hready.below (Node.mem_childNodes_of_mem_childrenOf hrow),
        eq_of_beq (Node.rule_of_mem_childrenThat hrow)⟩]
    rw [Lineage.marks_slots hready.formed h [(· == .valuesRow)] (by decide),
      List.flatMap_singleton]
    rfl
  · simp only [h]
    refine ⟨_, m, rfl, hm, ?_⟩
    rw [lineage.marks_eq_nil m (by rw [h]; decide)]
    simp [InsertSource.pieces]
  · obtain ⟨s, hs, htells⟩ := hreader.select? hready h
    have hforms : ∀ r ∈ Rule.all, Rule.isSelectForm r →
        r ≠ .valuesClause ∧ r ≠ .defaultValues := by decide
    obtain ⟨hvalues, hdefaults⟩ := hforms _ m.rule.mem_all h
    simp only [h, hvalues, hdefaults, beq_iff_eq, if_true, if_false]
    refine ⟨.select s, m, by rw [Option.bind_eq_bind, Option.bind_some, hs]; rfl, hm, ?_⟩
    rw [← htells]
    simp [InsertSource.pieces]

theorem insert?_tells (hn : n.Ready c text depth) (hrule : n.rule = .insertStmt) :
    ∃ i, insert? c reader n = some i ∧ lineage.partMarks (.insert i) = lineage.marks n := by
  obtain ⟨source, m, hsource, hm, hsourceMarks⟩ := insertSource?_tells hc hreader hn hrule
  obtain ⟨target, htarget⟩ := hn.formed.exists_child hrule (· == .insertTarget) (by decide)
  have htargetIn := hn.below (Node.mem_childNodes_of_findChild? htarget)
  obtain ⟨table, htable, htableMarks⟩ := Lineage.marks_only (L := lineage) htargetIn.formed
    (Node.rule_of_child? htarget) (· == .qualifiedName) (by decide)
  refine ⟨_, Option.bind_eq_some_iff.2 ⟨source, hsource, Option.bind_eq_some_iff.2
    ⟨target, htarget, Option.bind_eq_some_iff.2 ⟨table, htable, rfl⟩⟩⟩, ?_⟩
  rw [lineage.partMarks_insert, Lineage.marks_singles hn.formed hrule
    [(· == .insertTarget), isInserted] (by decide)]
  dsimp only
  rw [hsourceMarks, clause_tells hc hn.toGenuine (by decide),
    clause_tells hc hn.toGenuine (by decide)]
  have hname := tableName_marks hc
    (htargetIn.toGenuine.child (Node.mem_childNodes_of_findChild? htable))
    (Node.rule_of_child? htable)
  simp [htarget, hm, htableMarks, hname]

theorem structured?_tells (hn : n.Ready c text depth) (hrule : n.rule ∈ statementKinds) :
    lineage.partMarks (.statement ((structured? c reader n).getD (unlooked c n))) =
      lineage.marks n := by
  have hkept : lineage.bare n.rule →
      lineage.partMarks (.statement (unlooked c n)) = lineage.marks n := by
    intro hbare
    rw [lineage.marks_eq_nil n hbare]
    unfold unlooked
    split <;> exact Reading.kept_tells hc hn.toGenuine (plain_of_bare n hbare) hbare rfl rfl
  have hbare : ∀ rule ∈ statementKinds, rule ≠ .selectStmt → rule ≠ .insertStmt →
      rule ≠ .updateStmt → rule ≠ .deleteStmt → lineage.bare rule := by decide
  unfold structured?
  split
  · rename_i h
    obtain ⟨m, hm, hmarks⟩ :=
      Lineage.marks_only (L := lineage) hn.formed h Rule.isSelectForm (by decide)
    have hfirst := hn.formed.firstChild?_eq h Rule.isSelectForm (by decide)
    obtain ⟨s, hs, htells⟩ := hreader.select?
      (hn.below (Node.mem_childNodes_of_findChild? hm)) (Node.rule_of_findChild? hm)
    rw [hmarks, ← htells, hfirst, hm, Option.bind_eq_bind, Option.bind_some, hs]
    simp
  · rename_i h
    obtain ⟨i, hi, htells⟩ := insert?_tells hc hreader hn h
    simp [hi, htells]
  · rename_i h
    obtain ⟨u, hu, htells⟩ := update?_tells hc hreader hn h
    simp [hu, htells]
  · rename_i h
    obtain ⟨d, hd, htells⟩ := delete?_tells hc hreader hn h
    simp [hd, htells]
  · rename_i h
    have hcreate : lineage.bare n.rule := by
      rw [h]
      decide
    cases createDatabase? c n with
    | none => exact hkept hcreate
    | some create =>
      rw [lineage.marks_eq_nil n hcreate]
      exact lineage.partMarks_createDatabase create
  · rename_i hselect hinsert hupdate hdelete _
    exact hkept (hbare _ hrule hselect hinsert hupdate hdelete)

theorem statementOf_tells (hn : n.Ready c text depth)
    (hrule : n.rule = .emptyStmt ∨ n.rule = .stmt) :
    lineage.partMarks (.statement (statementOf c reader n)) = lineage.marks n := by
  unfold statementOf
  obtain h | h := hrule
  · rw [lineage.marks_eq_nil n (by rw [h]; decide), h]
    exact lineage.partMarks_empty _
  · obtain ⟨m, hm, hmarks⟩ :=
      Lineage.marks_only (L := lineage) hn.formed h statementKinds.contains (by decide)
    have hfirst := hn.formed.firstChild?_eq h statementKinds.contains (by decide)
    rw [hmarks, h, hfirst, hm]
    exact structured?_tells hc hreader (hn.below (Node.mem_childNodes_of_findChild? hm))
      (List.contains_iff_mem.1 (Node.rule_of_findChild? hm))

end

end Read

end SqlScript.Postgres
