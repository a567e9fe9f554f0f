import SqlScript.MySql.Reading
import SqlScript.Proofs.Recast.Reading

/-!
MySQL statements are read alike wherever they stand, and however their words are written.
-/

namespace SqlScript.MySql

open SqlScript.Tree

variable {text : List Char} {g : Recast} {f : Excerpt → Excerpt} {w : String → String} {c c' : Context}
  {n : Node Rule} {height : Nat} {reader reader' : Reader Rule}

namespace Read

section

variable (hc : c.Recasts text g f w c') (hn : (Element.node n).Laid text)

include hc hn

theorem alias?_recast : alias? c' (n.recast g) = (alias? c n).map w := by
  unfold alias?
  rw [Node.child?_recast]
  cases hm : n.child? .uid with
  | none => rfl
  | some m =>
    have hname := hc.identifier (hn.child (Node.mem_childNodes_of_child? hm))
    exact congrArg (fun i => some i.value) hname

theorem tableName?_recast :
    tableName? c' (n.recast g) = (tableName? c n).map (TableName.recast f w) := by
  unfold tableName?
  rw [Node.child?_recast]
  apply map_map_congr
  intro m hm
  rw [hc.dottedName (hn.child (Node.mem_childNodes_of_child? hm)),
    DottedName.toTableName_recast hc.transparent]

theorem columnName_recast :
    columnName c' (n.recast g) = (columnName c n).recast f w := by
  unfold columnName
  rw [hc.dottedName hn, DottedName.toColumnName_recast hc.transparent]

theorem childTableName?_recast :
    (n.recast g).child? .tableName >>= tableName? c' =
      (n.child? .tableName >>= tableName? c).map (TableName.recast f w) := by
  rw [Node.child?_recast]
  apply bind_map_congr
  intro m hm
  exact tableName?_recast hc (hn.child (Node.mem_childNodes_of_child? hm))

theorem namedTable?_recast :
    namedTable? c' (n.recast g) = (namedTable? c n).map (NamedTable.recast f w) := by
  unfold namedTable?
  rw [childTableName?_recast hc hn, alias?_recast hc hn, hc.excerptOf hn]
  cases n.child? .tableName >>= tableName? c <;> rfl

theorem selectElement?_recast :
    selectElement? c' (n.recast g) = (selectElement? c n).map (SelectElement.recast f w) := by
  have hqualifier : c'.dottedName <$> (n.recast g).child? .fullId =
      (c.dottedName <$> n.child? .fullId).map (DottedName.recast f w) := by
    rw [Node.child?_recast]
    apply map_map_congr
    intro m hm
    exact hc.dottedName (hn.child (Node.mem_childNodes_of_child? hm))
  unfold selectElement?
  rw [Node.rule_recast, hqualifier, hc.excerptOf hn, hc.unstructured hn, alias?_recast hc hn,
    Node.child?_recast]
  split
  · rfl
  · apply bind_map_congr
    intro m hm
    rw [columnName_recast hc (hn.child (Node.mem_childNodes_of_child? hm))]
    rfl
  · rfl
  · rfl
  · rfl

theorem limit_recast : limit c' (n.recast g) = (limit c n).relocate f := by
  have hcounts : ((n.recast g).childrenOf .limitClauseAtom).map
        (fun m => m.tokens.head? >>= c'.integer?) =
      (n.childrenOf .limitClauseAtom).map fun m => m.tokens.head? >>= c.integer? := by
    rw [Node.childrenOf_recast, List.map_map]
    apply List.map_congr_left
    intro m hm
    have hm := hn.child (Node.mem_childNodes_of_mem_childrenOf hm)
    dsimp only [Function.comp_apply]
    rw [Node.tokens_recast, List.head?_map]
    cases ht : m.tokens.head? with
    | none => rfl
    | some t => exact hc.integer? (hm.proper_token (List.mem_of_mem_head? ht)).1
  unfold limit
  rw [hcounts, Node.hasKeyword_recast, Node.hasToken_recast g n rfl, hc.excerptOf hn]
  dsimp only
  split
  · rfl
  · split <;> rfl

theorem connectiveOf?_recast : connectiveOf? c' (n.recast g) = connectiveOf? c n := by
  unfold connectiveOf?
  rw [Node.rule_recast, Node.child?_recast]
  split
  · cases hm : n.child? .logicalOperator with
    | none => rfl
    | some m =>
      have htext := hc.textOf (hn.child (Node.mem_childNodes_of_child? hm))
      exact (congrArg LogicalOperator.ofText? htext).trans (hc.transparent.ofText? (c.text m))
  · rfl

theorem atom_recast : atom c' (n.recast g) = (atom c n).recast f w := by
  have hconstant : (fun m => Atom.constant (c'.excerptOf (n.recast g))
        ⟨c'.excerptOf m, c'.text m⟩) <$> (n.recast g).child? .constant =
      ((fun m => Atom.constant (c.excerptOf n) ⟨c.excerptOf m, c.text m⟩) <$>
        n.child? .constant).map (Atom.recast f w) := by
    rw [Node.child?_recast, hc.excerptOf hn]
    apply map_map_congr
    intro m hm
    have hm := hn.child (Node.mem_childNodes_of_child? hm)
    rw [hc.excerptOf hm, hc.textOf hm]
    rfl
  have hcolumn : (Atom.column <| columnName c' ·) <$> (n.recast g).child? .fullColumnName =
      ((Atom.column <| columnName c ·) <$> n.child? .fullColumnName).map (Atom.recast f w) := by
    rw [Node.child?_recast]
    apply map_map_congr
    intro m hm
    rw [columnName_recast hc (hn.child (Node.mem_childNodes_of_child? hm))]
    rfl
  unfold atom
  rw [Node.rule_recast, hconstant, hcolumn, hc.unstructured hn]
  dsimp only
  split
  · cases n.child? .constant <;> rfl
  · cases n.child? .fullColumnName <;> rfl
  · rfl

end

theorem roles_recasts (hc : c.Recasts text g f w c') : roles.Recasts text g f w c c' where
  partOperand? n := n.firstChild?_recast g
  partOperand?_mem h := .of_firstChild? h
  isDistinct n := by
    change isDistinct (n.recast g) = isDistinct n
    unfold isDistinct
    rw [Node.childrenOf_recast, List.any_map]
    congr 1
    funext m
    simp
  element? hn := selectElement?_recast hc hn
  tables? n := by
    change ((n.recast g).child? .fromClause >>= (·.child? .tableSources)) =
      (n.child? .fromClause >>= (·.child? .tableSources)).map (Node.recast g)
    rw [Node.child?_recast]
    apply bind_map_congr
    intro m _
    exact m.child?_recast g _
  tables?_mem := by
    intro n m h
    obtain ⟨k, hk, hm⟩ := Option.bind_eq_some_iff.1 h
    have hk := Node.mem_childNodes_of_child? hk
    have hm := Node.mem_childNodes_of_child? hm
    exact ⟨.child hk (.of_mem hm), Nat.lt_trans (Node.height_lt_of_mem_childNodes hm)
      (Node.height_lt_of_mem_childNodes hk)⟩
  rowCondition? n := n.child?_recast g _
  rowCondition?_mem h := .of_child? h
  limit hn := limit_recast hc hn
  namedTable? hn := namedTable?_recast hc hn
  alias? hn := alias?_recast hc hn
  joinKind? n := by
    change joinKind? (n.recast g) = joinKind? n
    unfold joinKind?
    simp only [Node.rule_recast, Node.hasKeyword_recast]
  connective? hn := connectiveOf?_recast hc hn
  atom? n := n.findChild?_recast g _
  atom?_mem h := .of_findChild? h
  atom hn := atom_recast hc hn

section

variable (hc : c.Recasts text g f w c')
  (hreader : reader.Recasts text g f w c .comparisonOperator height reader')
  (hn : n.Fits text w c .comparisonOperator)

include hc hreader hn

theorem assignmentsOf_recast (hheight : n.height ≤ height) :
    assignmentsOf c' reader' (n.recast g) =
      (assignmentsOf c reader n).map (Assignment.recast f w) := by
  unfold assignmentsOf
  rw [Node.childrenOf_recast]
  apply filterMap_map_congr
  intro m hm
  have hm := Node.mem_childNodes_of_mem_childrenOf hm
  rw [Node.findChild?_recast]
  apply bind_map_congr
  intro value hvalue
  have hvalue := Node.mem_childNodes_of_findChild? hvalue
  rw [Node.child?_recast]
  apply bind_map_congr
  intro column hcolumn
  rw [hc.excerptOf (hn.child hm).laid,
    columnName_recast hc ((hn.child hm).child (Node.mem_childNodes_of_child? hcolumn)).laid,
    hreader.expression ((hn.child hm).child hvalue) (Nat.lt_of_lt_of_le (Nat.lt_trans
      (Node.height_lt_of_mem_childNodes hvalue) (Node.height_lt_of_mem_childNodes hm)) hheight)]
  rfl

omit hreader in
theorem singleTable?_recast :
    singleTable? c' (n.recast g) = (singleTable? c n).map (TableSources.recast f w) := by
  unfold singleTable?
  rw [Node.child?_recast]
  apply bind_map_congr
  intro name hname
  have hname := (hn.child (Node.mem_childNodes_of_child? hname)).laid
  rw [tableName?_recast hc hname]
  cases tableName? c name with
  | none => rfl
  | some table =>
    dsimp only [Option.map_some, Option.bind_eq_bind, Option.bind_some]
    rw [Node.child?_recast, alias?_recast hc hn.laid, Node.span_recast]
    cases huid : n.child? .uid with
    | none =>
      dsimp only [Option.map_none]
      rw [hc.excerpt hname.proper]
      rfl
    | some uid =>
      have huid := (hn.child (Node.mem_childNodes_of_child? huid)).laid
      dsimp only [Option.map_some]
      rw [Node.span_recast, ← hc.merge, hc.excerpt (hname.proper.merge huid.proper)]
      rfl

theorem insertSource?_recast (hheight : n.height ≤ height) :
    insertSource? c' reader' (n.recast g) =
      (insertSource? c reader n).map (InsertSource.recast f w) := by
  unfold insertSource?
  rw [Node.child?_recast, assignmentsOf_recast hc hreader hn hheight]
  cases hvalue : n.child? .insertStatementValue with
  | none => rfl
  | some value =>
    have hvalue := Node.mem_childNodes_of_child? hvalue
    have hlt := Nat.lt_of_lt_of_le (Node.height_lt_of_mem_childNodes hvalue) hheight
    dsimp only [Option.map_some]
    rw [Node.findChild?_recast]
    cases hselect : value.findChild? Rule.isSelectForm with
    | some select =>
      have hselect := Node.mem_childNodes_of_findChild? hselect
      dsimp only [Option.map_some]
      rw [hreader.select? ((hn.child hvalue).child hselect)
        (Nat.lt_trans (Node.height_lt_of_mem_childNodes hselect) hlt)]
      cases reader.select? select <;> rfl
    | none =>
      have hrows : ((value.recast g).childrenOf .expressionsWithDefaults).map
            (·.childNodes.map reader'.expression) =
          ((value.childrenOf .expressionsWithDefaults).map
            (·.childNodes.map reader.expression)).map (·.map (Expr.recast f w)) := by
        rw [Node.childrenOf_recast, List.map_map, List.map_map]
        apply List.map_congr_left
        intro row hrow
        have hrow := Node.mem_childNodes_of_mem_childrenOf hrow
        dsimp only [Function.comp_apply]
        rw [Node.childNodes_recast, List.map_map, List.map_map]
        apply List.map_congr_left
        intro x hx
        exact hreader.expression (((hn.child hvalue).child hrow).child hx)
          (Nat.lt_trans (Nat.lt_trans (Node.height_lt_of_mem_childNodes hx)
            (Node.height_lt_of_mem_childNodes hrow)) hlt)
      dsimp only [Option.map_none]
      rw [hrows, hc.excerptOf (hn.child hvalue).laid]
      rfl

theorem insert?_recast (hheight : n.height ≤ height) :
    insert? c' reader' (n.recast g) = (insert? c reader n).map (Insert.recast f w) := by
  have hcolumns : (((n.recast g).child? .uidList).map (Reading.names roles c')).getD [] =
      (((n.child? .uidList).map (Reading.names roles c)).getD []).map w := by
    rw [Node.child?_recast]
    cases hlist : n.child? .uidList with
    | none => rfl
    | some list =>
      exact Reading.names_recast hc (hn.child (Node.mem_childNodes_of_child? hlist)).laid
  have hduplicate : (((n.recast g).child? .duplicateKeyUpdate).map
        (assignmentsOf c' reader')).getD [] =
      (((n.child? .duplicateKeyUpdate).map (assignmentsOf c reader)).getD []).map
        (Assignment.recast f w) := by
    rw [Node.child?_recast]
    cases hclause : n.child? .duplicateKeyUpdate with
    | none => rfl
    | some clause =>
      have hcontains := Node.Contains.of_child? hclause
      exact assignmentsOf_recast hc hreader (hn.of_contains hcontains)
        (Nat.le_trans hcontains.height_le hheight)
  unfold insert?
  rw [insertSource?_recast hc hreader hn hheight, childTableName?_recast hc hn.laid, hcolumns,
    hduplicate, hc.excerptOf hn.laid]
  cases insertSource? c reader n with
  | none => rfl
  | some source => cases n.child? .tableName >>= tableName? c <;> rfl

omit hc in
theorem listedTables?_recast (hheight : n.height ≤ height) :
    reader'.tables <$> (n.recast g).child? .tableSources =
      (reader.tables <$> n.child? .tableSources).map (TableSources.recast f w) := by
  rw [Node.child?_recast]
  apply map_map_congr
  intro m hm
  have hm := Node.mem_childNodes_of_child? hm
  exact hreader.tables (hn.child hm)
    (Nat.lt_of_lt_of_le (Node.height_lt_of_mem_childNodes hm) hheight)

theorem update?_recast (hheight : n.height ≤ height) :
    update? c' reader' (n.recast g) = (update? c reader n).map (Update.recast f w) := by
  unfold update?
  rw [Node.rule_recast, singleTable?_recast hc hn,
    listedTables?_recast hreader hn hheight, hc.excerptOf hn.laid,
    assignmentsOf_recast hc hreader hn hheight, Reading.condition?_recast hreader hn hheight,
    Reading.unstructured?_recast hc hn.laid, Reading.limit?_recast (roles_recasts hc) hn.laid]
  split
  · cases singleTable? c n <;> rfl
  · cases reader.tables <$> n.child? .tableSources <;> rfl

theorem delete?_recast (hheight : n.height ≤ height) :
    delete? c' reader' (n.recast g) = (delete? c reader n).map (Delete.recast f w) := by
  have htargets : ((n.recast g).childrenOf .tableName).filterMap (tableName? c') =
      ((n.childrenOf .tableName).filterMap (tableName? c)).map (TableName.recast f w) := by
    rw [Node.childrenOf_recast]
    apply filterMap_map_congr
    intro m hm
    exact tableName?_recast hc (hn.child (Node.mem_childNodes_of_mem_childrenOf hm)).laid
  unfold delete?
  rw [Node.rule_recast, singleTable?_recast hc hn,
    listedTables?_recast hreader hn hheight, hc.excerptOf hn.laid, htargets,
    Reading.condition?_recast hreader hn hheight,
    Reading.unstructured?_recast hc hn.laid, Reading.limit?_recast (roles_recasts hc) hn.laid]
  by_cases hrule : n.rule = .singleDeleteStatement
  · simp only [hrule, if_true]
    cases singleTable? c n <;> rfl
  · simp only [hrule, if_false]
    cases reader.tables <$> n.child? .tableSources <;> rfl

omit hreader in
theorem createDatabase?_recast :
    createDatabase? c' (n.recast g) =
      (createDatabase? c n).map (CreateDatabase.recast f w) := by
  unfold createDatabase?
  rw [Node.child?_recast]
  apply bind_map_congr
  intro m hm
  rw [hc.excerptOf hn.laid, hc.identifier (hn.child (Node.mem_childNodes_of_child? hm)).laid,
    Node.hasKeyword_recast]
  rfl

theorem manipulationOf_recast (hheight : n.height ≤ height) :
    manipulationOf c' reader' (n.recast g) = (manipulationOf c reader n).recast f w := by
  unfold manipulationOf
  rw [Node.firstChild?_recast, hc.unstructured hn.laid]
  cases hm : n.firstChild? with
  | none => rfl
  | some m =>
    have hm := Node.mem_childNodes_of_firstChild? hm
    have hlt := Nat.lt_of_lt_of_le (Node.height_lt_of_mem_childNodes hm) hheight
    have hm := hn.child hm
    simp only [Option.map_some, Option.bind_eq_bind, Option.bind_some, Node.rule_recast,
      hreader.select? hm hlt, insert?_recast hc hreader hm (Nat.le_of_lt hlt),
      update?_recast hc hreader hm (Nat.le_of_lt hlt),
      delete?_recast hc hreader hm (Nat.le_of_lt hlt)]
    split
    any_goals cases reader.select? m <;> rfl
    · cases insert? c reader m <;> rfl
    any_goals cases update? c reader m <;> rfl
    any_goals cases delete? c reader m <;> rfl

theorem statementOfFamily_recast (hheight : n.height ≤ height) :
    statementOfFamily c' reader' (n.recast g) = (statementOfFamily c reader n).recast f w := by
  have hcreate : (n.recast g).child? .createDatabase >>= createDatabase? c' =
      (n.child? .createDatabase >>= createDatabase? c).map
        (CreateDatabase.recast f w) := by
    rw [Node.child?_recast]
    apply bind_map_congr
    intro m hm
    exact createDatabase?_recast hc (hn.child (Node.mem_childNodes_of_child? hm))
  unfold statementOfFamily
  rw [Node.rule_recast, manipulationOf_recast hc hreader hn hheight, hcreate,
    hc.unstructured hn.laid, Node.child?_recast, Node.findChild?_recast]
  split
  · rfl
  · cases n.child? .createDatabase >>= createDatabase? c <;> rfl
  · cases hm : n.child? .showStatement with
    | none => rfl
    | some m =>
      exact congrArg Statement.otherRead
        (hc.unstructured (hn.child (Node.mem_childNodes_of_child? hm)).laid)
  · cases hm : n.findChild? fun rule =>
        rule == .simpleDescribeStatement || rule == .fullDescribeStatement with
    | none => rfl
    | some m =>
      exact congrArg Statement.otherRead
        (hc.unstructured (hn.child (Node.mem_childNodes_of_findChild? hm)).laid)
  · rfl

theorem statementOf_recast (hheight : n.height ≤ height) :
    statementOf c' reader' (n.recast g) = (statementOf c reader n).recast f w := by
  unfold statementOf
  rw [Node.rule_recast, hc.excerptOf hn.laid, hc.unstructured hn.laid, Node.firstChild?_recast]
  split
  · rfl
  · cases hm : n.firstChild? with
    | none => rfl
    | some m =>
      have hcontains := Node.Contains.of_firstChild? hm
      exact statementOfFamily_recast hc hreader (hn.of_contains hcontains)
        (Nat.le_trans hcontains.height_le hheight)

end

end Read

end SqlScript.MySql
