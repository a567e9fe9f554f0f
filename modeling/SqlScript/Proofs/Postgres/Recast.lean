import Mathlib.Data.List.Basic
import SqlScript.Proofs.Recast.Reading
import SqlScript.Proofs.Postgres.Reading

/-!
PostgreSQL statements are read alike wherever they stand, and however their words are written.
-/

namespace SqlScript.Postgres.Read

open SqlScript.Tree

variable {text : List Char} {g : Recast} {f : Excerpt → Excerpt} {w : String → String} {c c' : Context}
  {n : Node Rule} {height : Nat} {reader reader' : Reader Rule}

section

variable (hc : c.Recasts text g f w c') (hn : (Element.node n).Laid text)

include hc hn

theorem alias?_recast : alias? c' (n.recast g) = (alias? c n).map w := by
  unfold alias?
  rw [Node.child?_recast]
  cases hm : n.child? .aliasClause with
  | none => rfl
  | some m =>
    have hm := hn.child (Node.mem_childNodes_of_child? hm)
    dsimp only [Option.map_some, Option.bind_eq_bind, Option.bind_some]
    rw [Node.child?_recast]
    cases hname : m.child? .colId with
    | none => rfl
    | some name =>
      have hname := hc.identifier (hm.child (Node.mem_childNodes_of_child? hname))
      exact congrArg (fun i => some i.value) hname

theorem tableName_recast : tableName c' (n.recast g) = (tableName c n).recast f w := by
  unfold tableName
  rw [hc.dottedName hn, DottedName.toTableName_recast hc.transparent]

theorem columnName_recast : columnName c' (n.recast g) = (columnName c n).recast f w := by
  unfold columnName
  rw [hc.dottedName hn, DottedName.toColumnName_recast hc.transparent]

theorem namedTable?_recast :
    namedTable? c' (n.recast g) = (namedTable? c n).map (NamedTable.recast f w) := by
  unfold namedTable?
  rw [Node.child?_recast]
  apply bind_map_congr
  intro m hm
  rw [tableName_recast hc (hn.child (Node.mem_childNodes_of_child? hm)), alias?_recast hc hn,
    hc.excerptOf hn]
  rfl

omit hc hn in
theorem bareOperand?_recast :
    bareOperand? (n.recast g) = (bareOperand? n).map (Node.recast g) := by
  unfold bareOperand?
  rw [Node.rule_recast, Node.firstChild?_recast]
  by_cases hrule : n.rule = .aExprPredicate
  · simp only [guard, if_pos hrule, Option.bind_eq_bind, Option.pure_def, Option.bind_some]
    apply bind_map_congr
    intro primary _
    rw [Node.rule_recast, Node.firstChild?_recast]
    by_cases hprimary : primary.rule = .aExprPrimary
    · simp only [if_pos hprimary, Option.bind_some]
    · simp only [if_neg hprimary]
      rfl
  · simp only [guard, if_neg hrule]
    rfl

omit hn in
theorem nameOfTokens?_recast {ts : List Token} (hts : ∀ t ∈ ts, t.span.Proper text) :
    nameOfTokens? c' (ts.map (Token.recast g)) =
      (nameOfTokens? c ts).map (DottedName.recast f w) := by
  have hparts : ∀ t ∈ ts.filter (·.kind != .dot), t.span.Proper text := by
    intro t ht
    exact hts t (List.mem_filter.1 ht).1
  have hfilter : (ts.map (Token.recast g)).filter (·.kind != .dot) =
      (ts.filter (·.kind != .dot)).map (Token.recast g) := by
    rw [List.filter_map, Token.bne_comp_recast g rfl]
  unfold nameOfTokens?
  dsimp only
  rw [hfilter, List.head?_map, List.getLast?_map]
  apply bind_map_congr
  intro first hfirst
  apply bind_map_congr
  intro last hlast
  have hspan := (hparts _ (List.mem_of_mem_head? hfirst)).merge
    (hparts _ (List.mem_of_getLast? hlast))
  rw [Token.span_recast, Token.span_recast, ← hc.merge, hc.nameOfTokens hspan hparts]
  rfl

theorem selectElement?_recast :
    selectElement? c' (n.recast g) = (selectElement? c n).map (SelectElement.recast f w) := by
  unfold selectElement?
  rw [Node.rule_recast, hc.excerptOf hn, hc.unstructured hn, Node.findChild?_recast]
  split
  · rfl
  · apply bind_map_congr
    intro expression hexpression
    have hexpression := Node.Contains.of_findChild? hexpression
    rw [bareOperand?_recast]
    cases hoperand : bareOperand? expression with
    | none => rfl
    | some operand =>
      have hoperand := hn.of_contains (hexpression.trans (contains_of_bareOperand? hoperand))
      dsimp only [Option.map_some]
      rw [Node.rule_recast]
      split
      · rw [Node.hasToken_recast g _ rfl]
        split
        · have htokens : (operand.recast g).tokens.filter (·.kind != .star) =
              (operand.tokens.filter (·.kind != .star)).map (Token.recast g) := by
            rw [Node.tokens_recast, List.filter_map, Token.bne_comp_recast g rfl]
          have hproper : ∀ t ∈ operand.tokens.filter (·.kind != .star), t.span.Proper text :=
            fun t ht => (hoperand.proper_token (List.mem_filter.1 ht).1).1
          rw [htokens, nameOfTokens?_recast hc hproper]
          rfl
        · have hlabel : (c'.identifier · |>.value) <$> (n.recast g).child? .colLabel =
              ((c.identifier · |>.value) <$> n.child? .colLabel).map w := by
            rw [Node.child?_recast]
            cases hm : n.child? .colLabel with
            | none => rfl
            | some m =>
              have hname := hc.identifier (hn.child (Node.mem_childNodes_of_child? hm))
              exact congrArg (fun i => some i.value) hname
          rw [columnName_recast hc hoperand, hlabel]
          rfl
      · rfl
      · rfl
  · rfl

theorem count?_recast : count? c' (n.recast g) = count? c n := by
  unfold count?
  rw [Node.findChild?_recast]
  cases hm : n.findChild? Rule.isExpressionForm with
  | none => rfl
  | some m =>
    have htext := hc.textOf (hn.child (Node.mem_childNodes_of_findChild? hm))
    exact (congrArg Text.count? htext).trans (hc.transparent.count? (c.text m))

theorem limit_recast : limit c' (n.recast g) = (limit c n).relocate f := by
  have hoffset : (n.recast g).child? .offsetClause >>= count? c' =
      n.child? .offsetClause >>= count? c := by
    rw [Node.child?_recast]
    cases hm : n.child? .offsetClause with
    | none => rfl
    | some m => exact count?_recast hc (hn.child (Node.mem_childNodes_of_child? hm))
  unfold limit
  rw [hoffset, hc.excerptOf hn, Node.child?_recast, Node.child?_recast]
  cases hm : n.child? .limitClause with
  | some m =>
    dsimp only [Option.map_some]
    rw [count?_recast hc (hn.child (Node.mem_childNodes_of_child? hm))]
    rfl
  | none =>
    cases hm : n.child? .fetchClause with
    | none => rfl
    | some m =>
      dsimp only [Option.map_none, Option.map_some, Option.bind_eq_bind, Option.bind_some]
      rw [count?_recast hc (hn.child (Node.mem_childNodes_of_child? hm)),
        Node.findChild?_recast, Option.isSome_map]
      rfl

theorem atom_recast : atom c' (n.recast g) = (atom c n).recast f w := by
  unfold atom
  rw [Node.rule_recast, hc.excerptOf hn, hc.textOf hn, hc.unstructured hn,
    columnName_recast hc hn, Node.hasToken_recast g _ rfl]
  split
  · rfl
  · split <;> rfl
  · rfl

end

theorem roles_recasts (hc : c.Recasts text g f w c') : roles.Recasts text g f w c c' where
  partOperand? n := n.findChild?_recast g _
  partOperand?_mem h := .of_findChild? h
  isDistinct n := by
    change ((n.recast g).child? .distinctClause).isSome = (n.child? .distinctClause).isSome
    rw [Node.child?_recast, Option.isSome_map]
  element? hn := selectElement?_recast hc hn
  tables? n := by
    change ((n.recast g).child? .fromClause >>= (·.child? .fromList)) =
      (n.child? .fromClause >>= (·.child? .fromList)).map (Node.recast g)
    rw [Node.child?_recast]
    apply bind_map_congr
    intro m _
    exact m.child?_recast g _
  tables?_mem := by
    intro n m h
    obtain ⟨k, hk, hm⟩ := Option.bind_eq_some_iff.1 h
    have hk := Node.mem_childNodes_of_child? hk
    have hm := Node.mem_childNodes_of_child? hm
    exact ⟨.child hk (.of_mem hm), Nat.lt_trans (Node.height_lt_of_mem_childNodes hm)
      (Node.height_lt_of_mem_childNodes hk)⟩
  rowCondition? n := n.child?_recast g _
  rowCondition?_mem h := .of_child? h
  limit hn := limit_recast hc hn
  namedTable? hn := namedTable?_recast hc hn
  alias? hn := alias?_recast hc hn
  joinKind? n := by
    change joinKind? (n.recast g) = joinKind? n
    unfold joinKind? joinSide?
    simp only [Node.rule_recast, Node.hasKeyword_recast]
  connective? {n} _ := by
    change connectiveOf? (n.recast g) = connectiveOf? n
    unfold connectiveOf?
    rw [Node.rule_recast]
  atom? n := n.firstChild?_recast g
  atom?_mem h := .of_firstChild? h
  atom hn := atom_recast hc hn

section

variable (hc : c.Recasts text g f w c')
  (hreader : reader.Recasts text g f w c .compareOp height reader')
  (hn : n.Fits text w c .compareOp)

include hc hn

theorem targetColumn?_recast :
    targetColumn? c' (n.recast g) = (targetColumn? c n).map (ColumnName.recast f w) := by
  have htokens : (n.recast g).tokens.takeWhile (·.kind != .leftBracket) =
      (n.tokens.takeWhile (·.kind != .leftBracket)).map (Token.recast g) := by
    rw [Node.tokens_recast, List.takeWhile_map, Token.bne_comp_recast g rfl]
  have hproper : ∀ t ∈ n.tokens.takeWhile (·.kind != .leftBracket), t.span.Proper text :=
    fun t ht => (hn.laid.proper_token ((List.takeWhile_sublist _).subset ht)).1
  unfold targetColumn?
  rw [htokens, nameOfTokens?_recast hc hproper]
  cases nameOfTokens? c (n.tokens.takeWhile (·.kind != .leftBracket)) with
  | none => rfl
  | some name => exact congrArg some (name.toColumnName_recast hc.transparent)

omit hc hn in
theorem pairedTargets_recast :
    pairedTargets (n.recast g) =
      (pairedTargets n).map fun pair => (pair.1.recast g, pair.2.recast g) := by
  unfold pairedTargets
  dsimp only
  rw [Node.childrenOf_recast, Node.findChild?_recast]
  cases n.findChild? Rule.isExpressionForm with
  | none => rfl
  | some value =>
    dsimp only [Option.map_some]
    rw [bareOperand?_recast]
    have hpaired : ∀ row : List (Node Rule),
        (if (row.map (Node.recast g)).length =
            ((n.childrenOf .setTarget).map (Node.recast g)).length then
          ((n.childrenOf .setTarget).map (Node.recast g)).zip (row.map (Node.recast g))
        else ((n.childrenOf .setTarget).map (Node.recast g)).map (·, value.recast g)) =
        (if row.length = (n.childrenOf .setTarget).length then (n.childrenOf .setTarget).zip row
          else (n.childrenOf .setTarget).map (·, value)).map
          fun pair => (pair.1.recast g, pair.2.recast g) := by
      intro row
      rw [List.length_map, List.length_map]
      split
      · rw [List.zip_map]
        rfl
      · rw [List.map_map, List.map_map]
        rfl
    cases bareOperand? value with
    | none => exact hpaired []
    | some operand =>
      by_cases hrule : operand.rule = .cExprNested
      · simp only [Option.map_some, Node.rule_recast, if_pos hrule, Node.childrenThat_recast]
        exact hpaired (operand.childrenThat Rule.isExpressionForm)
      · simp only [Option.map_some, Node.rule_recast, if_neg hrule]
        exact hpaired []

include hreader

theorem assignment?_recast {target value : Node Rule} (htarget : n.Contains target)
    (hvalue : n.Contains value) (hheight : n.height < height) :
    (do return ⟨c'.excerptOf (n.recast g), ← targetColumn? c' (target.recast g),
      reader'.expression (value.recast g)⟩ : Option Assignment) =
      (do return ⟨c.excerptOf n, ← targetColumn? c target, reader.expression value⟩ :
        Option Assignment).map (Assignment.recast f w) := by
  rw [targetColumn?_recast hc (hn.of_contains htarget), hc.excerptOf hn.laid,
    hreader.expression (hn.of_contains hvalue) (Nat.lt_of_le_of_lt hvalue.height_le hheight)]
  cases targetColumn? c target <;> rfl

theorem multiAssignments_recast (hheight : n.height < height) :
    multiAssignments c' reader' (n.recast g) =
      (multiAssignments c reader n).map (Assignment.recast f w) := by
  unfold multiAssignments
  rw [pairedTargets_recast]
  apply filterMap_map_congr
  rintro ⟨target, value⟩ hpair
  obtain ⟨htarget, hvalue⟩ := contains_of_mem_pairedTargets hpair
  exact assignment?_recast hc hreader hn htarget hvalue hheight

theorem singleAssignment?_recast (hheight : n.height < height) :
    singleAssignment? c' reader' (n.recast g) =
      (singleAssignment? c reader n).map (Assignment.recast f w) := by
  unfold singleAssignment?
  rw [Node.child?_recast, Node.findChild?_recast]
  apply bind_map_congr
  intro target htarget
  have htarget := Node.Contains.of_child? htarget
  rw [targetColumn?_recast hc (hn.of_contains htarget)]
  apply bind_map_congr
  intro column _
  apply bind_map_congr
  intro value hvalue
  have hvalue := Node.Contains.of_findChild? hvalue
  rw [hc.excerptOf hn.laid,
    hreader.expression (hn.of_contains hvalue) (Nat.lt_of_le_of_lt hvalue.height_le hheight)]
  rfl

theorem assignmentsOf_recast (hheight : n.height ≤ height) :
    assignmentsOf c' reader' (n.recast g) =
      (assignmentsOf c reader n).map (Assignment.recast f w) := by
  unfold assignmentsOf
  rw [Node.childNodes_recast, List.flatMap_map, List.map_flatMap]
  apply List.flatMap_congr
  intro m hm
  have hlt := Nat.lt_of_lt_of_le (Node.height_lt_of_mem_childNodes hm) hheight
  have hm := hn.child hm
  rw [Node.rule_recast]
  split
  · rw [singleAssignment?_recast hc hreader hm hlt]
    cases singleAssignment? c reader m <;> rfl
  · exact multiAssignments_recast hc hreader hm hlt
  · rfl

theorem changedTables?_recast (clause : Rule) (hheight : n.height ≤ height) :
    changedTables? c' reader' (n.recast g) clause =
      (changedTables? c reader n clause).map (TableSources.recast f w) := by
  unfold changedTables?
  rw [Node.child?_recast]
  apply bind_map_congr
  intro target htarget
  have htarget := hn.child (Node.mem_childNodes_of_child? htarget)
  rw [namedTable?_recast hc htarget.laid]
  apply bind_map_congr
  intro table _
  have hlist : (n.recast g).child? clause >>= (·.child? .fromList) =
      (n.child? clause >>= (·.child? .fromList)).map (Node.recast g) := by
    rw [Node.child?_recast]
    apply bind_map_congr
    intro m _
    exact m.child?_recast g _
  dsimp only
  rw [hlist, hc.excerptOf htarget.laid]
  cases hm : n.child? clause >>= (·.child? .fromList) with
  | none => rfl
  | some list =>
    obtain ⟨m, hm, hlist⟩ := Option.bind_eq_some_iff.1 hm
    have hm := Node.mem_childNodes_of_child? hm
    have hlist := Node.mem_childNodes_of_child? hlist
    have hlt := Nat.lt_trans (Node.height_lt_of_mem_childNodes hlist)
      (Node.height_lt_of_mem_childNodes hm)
    have hlist := (hn.child hm).child hlist
    dsimp only [Option.map_some]
    rw [Node.span_recast, Node.span_recast, ← hc.merge,
      hc.excerpt (htarget.laid.proper.merge hlist.laid.proper),
      hreader.tables hlist (Nat.lt_of_lt_of_le hlt hheight)]
    rcases reader.tables list with ⟨e, sources⟩
    simp [TableSources.recast, recastSources_eq, TableSource.recast, JoinedTable.recast,
      recastJoins_eq, TableItem.recast]

theorem insertSource?_recast (hheight : n.height ≤ height) :
    insertSource? c' reader' (n.recast g) =
      (insertSource? c reader n).map (InsertSource.recast f w) := by
  unfold insertSource?
  rw [Node.child?_recast, Node.child?_recast, Node.findChild?_recast]
  cases hvalues : n.child? .valuesClause with
  | some values =>
    have hvalues := Node.mem_childNodes_of_child? hvalues
    have hlt := Nat.lt_of_lt_of_le (Node.height_lt_of_mem_childNodes hvalues) hheight
    have hvalues := hn.child hvalues
    have hrows : ((values.recast g).childrenOf .valuesRow).map
          (·.childNodes.map reader'.expression) =
        ((values.childrenOf .valuesRow).map
          (·.childNodes.map reader.expression)).map (·.map (Expr.recast f w)) := by
      rw [Node.childrenOf_recast, List.map_map, List.map_map]
      apply List.map_congr_left
      intro row hrow
      have hrow := Node.mem_childNodes_of_mem_childrenOf hrow
      dsimp only [Function.comp_apply]
      rw [Node.childNodes_recast, List.map_map, List.map_map]
      apply List.map_congr_left
      intro x hx
      exact hreader.expression ((hvalues.child hrow).child hx)
        (Nat.lt_trans (Nat.lt_trans (Node.height_lt_of_mem_childNodes hx)
          (Node.height_lt_of_mem_childNodes hrow)) hlt)
    dsimp only [Option.map_some]
    rw [hrows, hc.excerptOf hvalues.laid]
    rfl
  | none =>
    cases hdefaults : n.child? .defaultValues with
    | some defaults =>
      dsimp only [Option.map_some, Option.map_none]
      rw [hc.excerptOf (hn.child (Node.mem_childNodes_of_child? hdefaults)).laid]
      rfl
    | none =>
      apply bind_map_congr
      intro select hselect
      have hselect := Node.mem_childNodes_of_findChild? hselect
      rw [hreader.select? (hn.child hselect)
        (Nat.lt_of_lt_of_le (Node.height_lt_of_mem_childNodes hselect) hheight)]
      cases reader.select? select <;> rfl

omit hreader in
theorem insertedColumnsOf_recast :
    insertedColumnsOf c' (n.recast g) = (insertedColumnsOf c n).map w := by
  unfold insertedColumnsOf
  rw [Node.childrenOf_recast]
  apply filterMap_map_congr
  intro m hm
  have hm := hn.child (Node.mem_childNodes_of_mem_childrenOf hm)
  rw [Node.tokens_recast, List.head?_map]
  cases ht : m.tokens.head? with
  | none => rfl
  | some t =>
    have htext : c'.tokenText (t.recast g) = w (c.tokenText t) :=
      hc.slice (hm.laid.proper_token (List.mem_of_mem_head? ht)).1
    have hname := congrArg Identifier.value (hc.transparent.ofRaw (c.tokenText t))
    rw [← htext] at hname
    exact congrArg some hname

theorem insert?_recast (hheight : n.height ≤ height) :
    insert? c' reader' (n.recast g) = (insert? c reader n).map (Insert.recast f w) := by
  have hcolumns : (((n.recast g).child? .insertColumnList).map (insertedColumnsOf c')).getD [] =
      (((n.child? .insertColumnList).map (insertedColumnsOf c)).getD []).map w := by
    rw [Node.child?_recast]
    cases hlist : n.child? .insertColumnList with
    | none => rfl
    | some list => exact insertedColumnsOf_recast hc (hn.child (Node.mem_childNodes_of_child? hlist))
  unfold insert?
  rw [insertSource?_recast hc hreader hn hheight]
  apply bind_map_congr
  intro source _
  rw [Node.child?_recast]
  apply bind_map_congr
  intro target htarget
  have htarget := hn.child (Node.mem_childNodes_of_child? htarget)
  rw [Node.child?_recast]
  apply bind_map_congr
  intro table htable
  rw [hcolumns, hc.excerptOf hn.laid, Reading.unstructured?_recast hc hn.laid,
    Reading.unstructured?_recast hc hn.laid,
    tableName_recast hc (htarget.child (Node.mem_childNodes_of_child? htable)).laid]
  rfl

omit hc in
theorem rowCondition?_recast (hheight : n.height ≤ height) :
    rowCondition? reader' (n.recast g) = (rowCondition? reader n).map (Expr.recast f w) := by
  unfold rowCondition?
  rw [Node.child?_recast]
  apply bind_map_congr
  intro m hm
  have hcontains := Node.Contains.of_child? hm
  exact Reading.condition?_recast hreader (hn.of_contains hcontains)
    (Nat.le_trans hcontains.height_le hheight)

theorem update?_recast (hheight : n.height ≤ height) :
    update? c' reader' (n.recast g) = (update? c reader n).map (Update.recast f w) := by
  unfold update?
  rw [changedTables?_recast hc hreader hn _ hheight]
  apply bind_map_congr
  intro tables _
  rw [hc.excerptOf hn.laid, assignmentsOf_recast hc hreader hn hheight,
    rowCondition?_recast hreader hn hheight, Reading.unstructured?_recast hc hn.laid]
  rfl

theorem delete?_recast (hheight : n.height ≤ height) :
    delete? c' reader' (n.recast g) = (delete? c reader n).map (Delete.recast f w) := by
  unfold delete?
  rw [changedTables?_recast hc hreader hn _ hheight]
  apply bind_map_congr
  intro tables _
  rw [hc.excerptOf hn.laid, rowCondition?_recast hreader hn hheight,
    Reading.unstructured?_recast hc hn.laid]
  rfl

omit hreader in
theorem createDatabase?_recast :
    createDatabase? c' (n.recast g) =
      (createDatabase? c n).map (CreateDatabase.recast f w) := by
  unfold createDatabase?
  rw [Node.child?_recast]
  apply bind_map_congr
  intro m hm
  rw [hc.excerptOf hn.laid, hc.identifier (hn.child (Node.mem_childNodes_of_child? hm)).laid,
    Node.hasKeyword_recast]
  rfl

theorem structured?_recast (hheight : n.height ≤ height) :
    structured? c' reader' (n.recast g) =
      (structured? c reader n).map (Statement.recast f w) := by
  have hselect : (n.recast g).firstChild? >>= reader'.select? =
      (n.firstChild? >>= reader.select?).map (Select.recast f w) := by
    rw [Node.firstChild?_recast]
    apply bind_map_congr
    intro m hm
    have hm := Node.mem_childNodes_of_firstChild? hm
    exact hreader.select? (hn.child hm)
      (Nat.lt_of_lt_of_le (Node.height_lt_of_mem_childNodes hm) hheight)
  unfold structured?
  rw [Node.rule_recast, hselect, insert?_recast hc hreader hn hheight,
    update?_recast hc hreader hn hheight, delete?_recast hc hreader hn hheight,
    createDatabase?_recast hc hn]
  split
  · cases n.firstChild? >>= reader.select? <;> rfl
  · cases insert? c reader n <;> rfl
  · cases update? c reader n <;> rfl
  · cases delete? c reader n <;> rfl
  · cases createDatabase? c n <;> rfl
  · rfl

omit hreader in
theorem unlooked_recast : unlooked c' (n.recast g) = (unlooked c n).recast f w := by
  unfold unlooked
  rw [Node.rule_recast, hc.unstructured hn.laid]
  split <;> rfl

theorem statementOf_recast (hheight : n.height ≤ height) :
    statementOf c' reader' (n.recast g) = (statementOf c reader n).recast f w := by
  unfold statementOf
  rw [Node.rule_recast, hc.excerptOf hn.laid, hc.unstructured hn.laid, Node.firstChild?_recast]
  split
  · rfl
  · cases hm : n.firstChild? with
    | none => rfl
    | some m =>
      have hcontains := Node.Contains.of_firstChild? hm
      have hm := hn.of_contains hcontains
      dsimp only [Option.map_some]
      rw [structured?_recast hc hreader hm (Nat.le_trans hcontains.height_le hheight),
        unlooked_recast hc hm]
      cases structured? c reader m <;> rfl

end

end SqlScript.Postgres.Read
