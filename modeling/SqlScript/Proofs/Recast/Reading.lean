import SqlScript.Proofs.Reading
import SqlScript.Proofs.Recast.Statement
import SqlScript.Proofs.Recast.Tree

/-!
A production that stands in two scripts, at different places, is read alike in both. How deep the
readers may go makes no difference where they go deep enough.
-/

namespace SqlScript

open SqlScript.Tree

theorem Tree.Node.Contains.height_le {ρ : Type} {n m : Node ρ} (h : n.Contains m) :
    m.height ≤ n.height := by
  induction h with
  | refl => exact Nat.le_refl _
  | child hm _ ih => exact Nat.le_trans ih (Nat.le_of_lt (height_lt_of_mem_childNodes hm))

section

variable {α β γ δ : Type} {F : α → Option β} {F' : γ → Option δ} {φ : β → δ} {ψ : α → γ}

theorem bind_map_congr {x : Option α} (h : ∀ a, x = some a → F' (ψ a) = (F a).map φ) :
    (x.map ψ).bind F' = (x.bind F).map φ := by
  cases x with
  | none => rfl
  | some a => exact h a rfl

theorem map_map_congr {G : α → β} {G' : γ → δ} {x : Option α}
    (h : ∀ a, x = some a → G' (ψ a) = φ (G a)) : (x.map ψ).map G' = (x.map G).map φ := by
  cases x with
  | none => rfl
  | some a => exact congrArg some (h a rfl)

theorem filterMap_map_congr {xs : List α} (h : ∀ a ∈ xs, F' (ψ a) = (F a).map φ) :
    (xs.map ψ).filterMap F' = (xs.filterMap F).map φ := by
  induction xs with
  | nil => rfl
  | cons a xs ih =>
    have hxs := ih fun b hb => h b (List.mem_cons_of_mem a hb)
    rw [List.map_cons, List.filterMap_cons, List.filterMap_cons, h a (by simp), hxs]
    cases F a <;> rfl

end

/--
Words may be written this way instead: names keep their quotes, and numbers and connectives stay what
they are.
-/
structure Text.Transparent (w : String → String) : Prop where
  empty : w "" = ""
  ofRaw (raw : String) : Identifier.ofRaw (w raw) = (Identifier.ofRaw raw).recast w
  count? (text : String) : Text.count? (w text) = Text.count? text
  ofText? (text : String) : LogicalOperator.ofText? (w text) = LogicalOperator.ofText? text

theorem Text.transparent_id : Text.Transparent id :=
  ⟨rfl, fun _ => rfl, fun _ => rfl, fun _ => rfl⟩

structure Context.Recasts (text : List Char) (g : Recast) (f : Excerpt → Excerpt)
    (w : String → String) (c c' : Context) : Prop where
  excerpt {s : Span} : s.Proper text → c'.excerpt (g.span s) = f (c.excerpt s)
  slice {s : Span} : s.Proper text → (g.span s).slice c'.source = w (s.slice c.source)
  merge (s t : Span) : g.span (s.merge t) = (g.span s).merge (g.span t)
  transparent : Text.Transparent w

variable {ρ : Type} {text : List Char} {g : Recast} {f : Excerpt → Excerpt} {w : String → String}
  {c c' : Context} {n : Node ρ}

namespace Context.Recasts

variable (hc : Recasts text g f w c c') (hn : (Element.node n).Laid text)

include hc hn

theorem excerptOf : c'.excerptOf (n.recast g) = f (c.excerptOf n) := by
  unfold Context.excerptOf
  rw [Node.span_recast]
  exact hc.excerpt hn.proper

theorem textOf : c'.text (n.recast g) = w (c.text n) := by
  unfold Context.text Node.text
  rw [Node.span_recast]
  exact hc.slice hn.proper

theorem identifier : c'.identifier (n.recast g) = (c.identifier n).recast w := by
  unfold Context.identifier
  rw [hc.textOf hn, hc.transparent.ofRaw]

theorem unstructured [Production ρ] :
    c'.unstructured (n.recast g) = (c.unstructured n).relocate f := by
  unfold Context.unstructured unstructuredSpan Unstructured.relocate
  rw [Node.span_recast, Node.rule_recast, hc.excerpt hn.proper]

omit hn in
theorem nameOfTokens {s : Span} (hs : s.Proper text) {ts : List Token}
    (hts : ∀ t ∈ ts, t.span.Proper text) :
    c'.nameOfTokens (g.span s) (ts.map (Token.recast g)) = (c.nameOfTokens s ts).recast f w := by
  have hparts : ∀ t ∈ ts.filter (·.kind != .dot),
      c'.tokenText (t.recast g) = w (c.tokenText t) := by
    intro t ht
    exact hc.slice (hts t (List.mem_filter.1 ht).1)
  unfold Context.nameOfTokens DottedName.recast
  rw [hc.excerpt hs, List.filter_map, Token.bne_comp_recast g rfl, List.map_map, List.map_map]
  congr 1
  exact List.map_congr_left hparts

theorem dottedName : c'.dottedName (n.recast g) = (c.dottedName n).recast f w := by
  unfold Context.dottedName
  rw [Node.span_recast, Node.tokens_recast]
  exact hc.nameOfTokens hn.proper fun t ht => (hn.proper_token ht).1

omit hn in
theorem integer? {t : Token} (ht : t.span.Proper text) :
    c'.integer? (t.recast g) = c.integer? t := by
  have htext : c'.tokenText (t.recast g) = w (c.tokenText t) := hc.slice ht
  have heq : ∀ (c : Context) (t : Token),
      c.integer? t = if t.kind == .integer then Text.count? (c.tokenText t) else none := by
    intro c t
    unfold Context.integer?
    split
    · rename_i hkind
      rw [hkind]
      rfl
    · rename_i hkind
      exact (if_neg (mt eq_of_beq hkind)).symm
  rw [heq, heq, htext, hc.transparent.count?, Token.kind_recast, g.beq_kind rfl]

end Context.Recasts

section

variable (hw : Text.Transparent w) (name : DottedName)

include hw

theorem DottedName.split_recast :
    (name.recast f w).split =
      (name.split.1.map w, w name.split.2.1, name.split.2.2.map w) := by
  have hvalues : (name.recast f w).identifiers.map (·.value) =
      (name.identifiers.map (·.value)).map w := by
    unfold identifiers recast
    rw [List.map_map, List.map_map, List.map_map, List.map_map]
    apply List.map_congr_left
    intro part _
    exact congrArg Identifier.value (hw.ofRaw part)
  unfold split
  rw [hvalues]
  cases name.identifiers.map (·.value) with
  | nil => simp [hw.empty]
  | cons owner rest => cases rest <;> rfl

theorem DottedName.toTableName_recast :
    (name.recast f w).toTableName = name.toTableName.recast f w := by
  unfold toTableName
  rw [split_recast hw]
  rfl

theorem DottedName.toColumnName_recast :
    (name.recast f w).toColumnName = name.toColumnName.recast f w := by
  unfold toColumnName
  rw [split_recast hw]
  rfl

end

/--
A production that lies in the text, in which the operators of comparisons are written the same either
way.
-/
structure Tree.Node.Fits (text : List Char) (w : String → String) (c : Context) (operator : ρ)
    (n : Node ρ) : Prop where
  laid : (Element.node n).Laid text
  unchanged {m : Node ρ} : n.Contains m → m.rule = operator → w (c.text m) = c.text m

namespace Tree.Node.Fits

variable {operator : ρ} {m : Node ρ} (h : n.Fits text w c operator)

include h

theorem of_contains (hm : n.Contains m) : m.Fits text w c operator where
  laid := h.laid.of_contains hm
  unchanged hk := h.unchanged (hm.trans hk)

theorem child (hm : m ∈ n.childNodes) : m.Fits text w c operator :=
  h.of_contains (.of_mem hm)

end Tree.Node.Fits

structure Roles.Recasts (r : Roles ρ) (text : List Char) (g : Recast) (f : Excerpt → Excerpt)
    (w : String → String) (c c' : Context) : Prop where
  partOperand? (n : Node ρ) :
    r.partOperand? (n.recast g) = (r.partOperand? n).map (Node.recast g)
  partOperand?_mem {n m : Node ρ} : r.partOperand? n = some m → n.Contains m
  isDistinct (n : Node ρ) : r.isDistinct (n.recast g) = r.isDistinct n
  element? {n : Node ρ} : (Element.node n).Laid text →
    r.element? c' (n.recast g) = (r.element? c n).map (SelectElement.recast f w)
  tables? (n : Node ρ) : r.tables? (n.recast g) = (r.tables? n).map (Node.recast g)
  tables?_mem {n m : Node ρ} : r.tables? n = some m → n.Contains m ∧ m.height < n.height
  rowCondition? (n : Node ρ) :
    r.rowCondition? (n.recast g) = (r.rowCondition? n).map (Node.recast g)
  rowCondition?_mem {n m : Node ρ} : r.rowCondition? n = some m → n.Contains m
  limit {n : Node ρ} : (Element.node n).Laid text →
    r.limit c' (n.recast g) = (r.limit c n).relocate f
  namedTable? {n : Node ρ} : (Element.node n).Laid text →
    r.namedTable? c' (n.recast g) = (r.namedTable? c n).map (NamedTable.recast f w)
  alias? {n : Node ρ} : (Element.node n).Laid text →
    r.alias? c' (n.recast g) = (r.alias? c n).map w
  joinKind? (n : Node ρ) : r.joinKind? (n.recast g) = r.joinKind? n
  connective? {n : Node ρ} : (Element.node n).Laid text →
    r.connective? c' (n.recast g) = r.connective? c n
  atom? (n : Node ρ) : r.atom? (n.recast g) = (r.atom? n).map (Node.recast g)
  atom?_mem {n m : Node ρ} : r.atom? n = some m → n.Contains m
  atom {n : Node ρ} : (Element.node n).Laid text →
    r.atom c' (n.recast g) = (r.atom c n).recast f w

/--
The readers read the same at both places, from productions of less than a certain height.
-/
structure Reader.Recasts (text : List Char) (g : Recast) (f : Excerpt → Excerpt)
    (w : String → String) (c : Context) (operator : ρ) (height : Nat) (reader reader' : Reader ρ) :
    Prop where
  select? {n : Node ρ} : n.Fits text w c operator → n.height < height →
    reader'.select? (n.recast g) = (reader.select? n).map (Select.recast f w)
  union? {n : Node ρ} : n.Fits text w c operator → n.height < height →
    reader'.union? (n.recast g) = (reader.union? n).map (UnionSelect.recast f w)
  group? {n : Node ρ} : n.Fits text w c operator → n.height < height →
    reader'.group? (n.recast g) = (reader.group? n).map (QueryGroup.recast f w)
  tables {n : Node ρ} : n.Fits text w c operator → n.height < height →
    reader'.tables (n.recast g) = (reader.tables n).recast f w
  expression {n : Node ρ} : n.Fits text w c operator → n.height < height →
    reader'.expression (n.recast g) = (reader.expression n).recast f w
  predicate {n : Node ρ} : n.Fits text w c operator → n.height < height →
    reader'.predicate (n.recast g) = (reader.predicate n).recast f w

namespace Reading

variable [DecidableEq ρ] [Production ρ] {r : Roles ρ} {height : Nat} {nested nested' : Reader ρ}
  (hc : c.Recasts text g f w c')

section

variable (hn : (Element.node n).Laid text)

include hc hn

omit [Production ρ] in
theorem names_recast : names r c' (n.recast g) = (names r c n).map w := by
  unfold names
  rw [Node.childrenOf_recast, List.map_map, List.map_map]
  apply List.map_congr_left
  intro m hm
  have hname := hc.identifier (hn.child (Node.mem_childNodes_of_mem_childrenOf hm))
  exact congrArg Identifier.value hname

theorem unstructured?_recast (rule : ρ) :
    unstructured? c' (n.recast g) rule =
      (unstructured? c n rule).map (Unstructured.relocate f) := by
  unfold unstructured?
  rw [Node.child?_recast]
  apply map_map_congr
  intro m hm
  exact hc.unstructured (hn.child (Node.mem_childNodes_of_child? hm))

end

variable (hr : r.Recasts text g f w c c')

include hr

omit [Production ρ] in
theorem limit?_recast (hn : (Element.node n).Laid text) :
    limit? r c' (n.recast g) = (limit? r c n).map (Limit.relocate f) := by
  unfold limit?
  rw [Node.child?_recast]
  apply map_map_congr
  intro m hm
  exact hr.limit (hn.child (Node.mem_childNodes_of_child? hm))

omit [DecidableEq ρ] [Production ρ] in
include hc in
theorem selectElements_recast (hn : (Element.node n).Laid text) :
    selectElements r c' (n.recast g) = (selectElements r c n).recast f w := by
  unfold selectElements SelectElements.recast
  rw [hc.excerptOf hn, Node.hasToken_recast g n rfl, Node.childNodes_recast]
  congr 1
  apply filterMap_map_congr
  intro m hm
  exact hr.element? (hn.child hm)

variable (hnested : nested.Recasts text g f w c r.comparisonOperator height nested')

omit hr in
include hnested in
omit [DecidableEq ρ] [Production ρ] in
theorem condition?_recast (hn : n.Fits text w c r.comparisonOperator) (hheight : n.height ≤ height) :
    condition? r nested' (n.recast g) = (condition? r nested n).map (Expr.recast f w) := by
  unfold condition?
  rw [Node.findChild?_recast]
  apply map_map_congr
  intro m hm
  have hm := Node.mem_childNodes_of_findChild? hm
  exact hnested.expression (hn.child hm)
    (Nat.lt_of_lt_of_le (Node.height_lt_of_mem_childNodes hm) hheight)

include hc hnested

/-! Selects -/

theorem specification?_recast (hn : n.Fits text w c r.comparisonOperator) (hheight : n.height ≤ height) :
    specification? r c' nested' (n.recast g) =
      (specification? r c nested n).map (QuerySpecification.recast f w) := by
  have htables : nested'.tables <$> r.tables? (n.recast g) =
      (nested.tables <$> r.tables? n).map (TableSources.recast f w) := by
    rw [hr.tables?]
    apply map_map_congr
    intro m hm
    obtain ⟨hcontains, hlt⟩ := hr.tables?_mem hm
    exact hnested.tables (hn.of_contains hcontains) (Nat.lt_of_lt_of_le hlt hheight)
  have hcondition : r.rowCondition? (n.recast g) >>= condition? r nested' =
      (r.rowCondition? n >>= condition? r nested).map (Expr.recast f w) := by
    rw [hr.rowCondition?]
    apply bind_map_congr
    intro m hm
    have hcontains := hr.rowCondition?_mem hm
    exact condition?_recast hnested (hn.of_contains hcontains)
      (Nat.le_trans hcontains.height_le hheight)
  have hhaving : (n.recast g).child? r.having >>= condition? r nested' =
      (n.child? r.having >>= condition? r nested).map (Expr.recast f w) := by
    rw [Node.child?_recast]
    apply bind_map_congr
    intro m hm
    have hcontains := Node.Contains.of_child? hm
    exact condition?_recast hnested (hn.of_contains hcontains)
      (Nat.le_trans hcontains.height_le hheight)
  unfold specification?
  rw [Node.child?_recast]
  apply bind_map_congr
  intro m hm
  have helements := selectElements_recast hc hr (hn.child (Node.mem_childNodes_of_child? hm)).laid
  rw [hc.excerptOf hn.laid, hr.isDistinct, helements, htables, hcondition, hhaving,
    unstructured?_recast hc hn.laid, unstructured?_recast hc hn.laid, limit?_recast hr hn.laid]
  simp [QuerySpecification.recast, recastTables_eq, recastCondition_eq]

theorem operand_recast (hn : n.Fits text w c r.comparisonOperator) (hheight : n.height < height) :
    operand r c' nested' (n.recast g) = (operand r c nested n).recast f w := by
  unfold operand
  rw [Node.rule_recast, specification?_recast hc hr hnested hn (Nat.le_of_lt hheight),
    hnested.group? hn hheight, hnested.union? hn hheight, hc.unstructured hn.laid]
  split
  · rfl
  · split
    · cases specification? r c nested n <;> rfl
    · split
      · cases nested.group? n <;> rfl
      · cases nested.union? n <;> rfl

theorem unionPart?_recast (hn : n.Fits text w c r.comparisonOperator) (hheight : n.height < height) :
    unionPart? r c' nested' (n.recast g) =
      (unionPart? r c nested n).map (UnionPart.recast f w) := by
  unfold unionPart?
  rw [Node.tokens_recast, List.head?_map, List.getLast?_map, hr.partOperand?, hc.excerptOf hn.laid]
  apply bind_map_congr
  intro first hfirst
  apply bind_map_congr
  intro last hlast
  apply bind_map_congr
  intro m hm
  have hcontains := hr.partOperand?_mem hm
  have hoperator : (g.span first.span).merge (g.span last.span) =
      g.span (first.span.merge last.span) :=
    (hc.merge _ _).symm
  have hfirst := (hn.laid.proper_token (List.mem_of_mem_head? hfirst)).1
  have hlast := (hn.laid.proper_token (List.mem_of_getLast? hlast)).1
  rw [Token.span_recast, Token.span_recast, hoperator, hc.slice (hfirst.merge hlast),
    operand_recast hc hr hnested (hn.of_contains hcontains)
      (Nat.lt_of_le_of_lt hcontains.height_le hheight)]
  rfl

theorem unionSelect?_recast (hn : n.Fits text w c r.comparisonOperator) (hheight : n.height ≤ height) :
    unionSelect? r c' nested' (n.recast g) =
      (unionSelect? r c nested n).map (UnionSelect.recast f w) := by
  have hparts : ((n.recast g).childrenOf r.unionPart).filterMap (unionPart? r c' nested') =
      ((n.childrenOf r.unionPart).filterMap (unionPart? r c nested)).map
        (UnionPart.recast f w) := by
    rw [Node.childrenOf_recast]
    apply filterMap_map_congr
    intro m hm
    have hm := Node.mem_childNodes_of_mem_childrenOf hm
    exact unionPart?_recast hc hr hnested (hn.child hm)
      (Nat.lt_of_lt_of_le (Node.height_lt_of_mem_childNodes hm) hheight)
  unfold unionSelect?
  rw [Node.findChild?_recast]
  apply bind_map_congr
  intro m hm
  have hm := Node.mem_childNodes_of_findChild? hm
  rw [hc.excerptOf hn.laid, hparts, unstructured?_recast hc hn.laid, limit?_recast hr hn.laid,
    operand_recast hc hr hnested (hn.child hm)
      (Nat.lt_of_lt_of_le (Node.height_lt_of_mem_childNodes hm) hheight)]
  simp [UnionSelect.recast, recastParts_eq]

theorem queryBody?_recast (hn : n.Fits text w c r.comparisonOperator) (hheight : n.height < height) :
    queryBody? r c' nested' (n.recast g) =
      (queryBody? r c nested n).map (QueryBody.recast f w) := by
  unfold queryBody?
  rw [Node.rule_recast, specification?_recast hc hr hnested hn (Nat.le_of_lt hheight),
    hnested.group? hn hheight, hnested.union? hn hheight]
  split
  · cases specification? r c nested n <;> rfl
  · split
    · cases nested.union? n <;> rfl
    · split
      · cases nested.group? n <;> rfl
      · rfl

theorem queryGroup?_recast (hn : n.Fits text w c r.comparisonOperator) (hheight : n.height ≤ height) :
    queryGroup? r c' nested' (n.recast g) =
      (queryGroup? r c nested n).map (QueryGroup.recast f w) := by
  have hbody : (n.recast g).firstChild? >>= queryBody? r c' nested' =
      (n.firstChild? >>= queryBody? r c nested).map (QueryBody.recast f w) := by
    rw [Node.firstChild?_recast]
    apply bind_map_congr
    intro m hm
    have hm := Node.mem_childNodes_of_firstChild? hm
    exact queryBody?_recast hc hr hnested (hn.child hm)
      (Nat.lt_of_lt_of_le (Node.height_lt_of_mem_childNodes hm) hheight)
  unfold queryGroup?
  rw [hbody, hc.excerptOf hn.laid]
  cases n.firstChild? >>= queryBody? r c nested <;> rfl

theorem simpleSelect?_recast (hn : n.Fits text w c r.comparisonOperator) (hheight : n.height ≤ height) :
    simpleSelect? r c' nested' (n.recast g) =
      (simpleSelect? r c nested n).map (SimpleSelect.recast f w) := by
  have hquery : (n.recast g).child? r.specification >>= specification? r c' nested' =
      (n.child? r.specification >>= specification? r c nested).map
        (QuerySpecification.recast f w) := by
    rw [Node.child?_recast]
    apply bind_map_congr
    intro m hm
    have hcontains := Node.Contains.of_child? hm
    exact specification?_recast hc hr hnested (hn.of_contains hcontains)
      (Nat.le_trans hcontains.height_le hheight)
  unfold simpleSelect?
  rw [hquery, hc.excerptOf hn.laid, unstructured?_recast hc hn.laid]
  cases n.child? r.specification >>= specification? r c nested <;> rfl

theorem parenthesisSelect?_recast (hn : n.Fits text w c r.comparisonOperator)
    (hheight : n.height ≤ height) :
    parenthesisSelect? r c' nested' (n.recast g) =
      (parenthesisSelect? r c nested n).map (ParenthesisSelect.recast f w) := by
  have hgroup : (n.recast g).child? r.group >>= nested'.group? =
      (n.child? r.group >>= nested.group?).map (QueryGroup.recast f w) := by
    rw [Node.child?_recast]
    apply bind_map_congr
    intro m hm
    have hm := Node.mem_childNodes_of_child? hm
    exact hnested.group? (hn.child hm)
      (Nat.lt_of_lt_of_le (Node.height_lt_of_mem_childNodes hm) hheight)
  unfold parenthesisSelect?
  rw [hgroup, hc.excerptOf hn.laid, unstructured?_recast hc hn.laid, limit?_recast hr hn.laid]
  cases n.child? r.group >>= nested.group? <;> rfl

theorem selectStatement?_recast (hn : n.Fits text w c r.comparisonOperator)
    (hheight : n.height ≤ height) :
    selectStatement? r c' nested' (n.recast g) =
      (selectStatement? r c nested n).map (Select.recast f w) := by
  unfold selectStatement?
  rw [Node.rule_recast, simpleSelect?_recast hc hr hnested hn hheight,
    unionSelect?_recast hc hr hnested hn hheight,
    parenthesisSelect?_recast hc hr hnested hn hheight]
  split
  · cases simpleSelect? r c nested n <;> rfl
  · split
    · cases unionSelect? r c nested n <;> rfl
    · split
      · cases parenthesisSelect? r c nested n <;> rfl
      · rfl

/-! Tables -/

omit [DecidableEq ρ] [Production ρ] in
theorem subqueryTable?_recast (hn : n.Fits text w c r.comparisonOperator) (hheight : n.height ≤ height) :
    subqueryTable? r c' nested' (n.recast g) =
      (subqueryTable? r c nested n).map (SubqueryTable.recast f w) := by
  have hselect : (n.recast g).findChild? r.isSelect >>= nested'.select? =
      (n.findChild? r.isSelect >>= nested.select?).map (Select.recast f w) := by
    rw [Node.findChild?_recast]
    apply bind_map_congr
    intro m hm
    have hm := Node.mem_childNodes_of_findChild? hm
    exact hnested.select? (hn.child hm)
      (Nat.lt_of_lt_of_le (Node.height_lt_of_mem_childNodes hm) hheight)
  unfold subqueryTable?
  rw [hselect, hc.excerptOf hn.laid, Node.hasKeyword_recast, hr.alias? hn.laid]
  cases n.findChild? r.isSelect >>= nested.select? <;> rfl

theorem tableItem_recast (hn : n.Fits text w c r.comparisonOperator) (hheight : n.height ≤ height) :
    tableItem r c' nested' (n.recast g) = (tableItem r c nested n).recast f w := by
  have htables : (TableItem.nested <| nested'.tables ·) <$> (n.recast g).child? r.tableList =
      ((TableItem.nested <| nested.tables ·) <$> n.child? r.tableList).map
        (TableItem.recast f w) := by
    rw [Node.child?_recast]
    apply map_map_congr
    intro m hm
    have hm := Node.mem_childNodes_of_child? hm
    rw [hnested.tables (hn.child hm)
      (Nat.lt_of_lt_of_le (Node.height_lt_of_mem_childNodes hm) hheight)]
    rfl
  unfold tableItem
  rw [Node.rule_recast, hr.namedTable? hn.laid, subqueryTable?_recast hc hr hnested hn hheight,
    htables, hc.unstructured hn.laid]
  split
  · cases r.namedTable? c n <;> rfl
  · split
    · cases subqueryTable? r c nested n <;> rfl
    · split
      · cases n.child? r.tableList <;> rfl
      · rfl

omit hr in
omit [Production ρ] in
theorem joinCondition?_recast (hn : n.Fits text w c r.comparisonOperator) (hheight : n.height ≤ height) :
    joinCondition? r c' nested' (n.recast g) =
      (joinCondition? r c nested n).map (JoinCondition.recast f w) := by
  unfold joinCondition?
  rw [Node.hasKeyword_recast, condition?_recast hnested hn hheight, hc.excerptOf hn.laid,
    Node.child?_recast]
  split
  · cases condition? r nested n <;> rfl
  · apply map_map_congr
    intro m hm
    rw [names_recast hc (hn.child (Node.mem_childNodes_of_child? hm)).laid]
    rfl

theorem join?_recast (hn : n.Fits text w c r.comparisonOperator) (hheight : n.height ≤ height) :
    join? r c' nested' (n.recast g) = (join? r c nested n).map (Join.recast f w) := by
  have hcondition : (n.recast g).child? r.joinCondition >>= joinCondition? r c' nested' =
      (n.child? r.joinCondition >>= joinCondition? r c nested).map (JoinCondition.recast f w) := by
    rw [Node.child?_recast]
    apply bind_map_congr
    intro m hm
    have hcontains := Node.Contains.of_child? hm
    exact joinCondition?_recast hc hnested (hn.of_contains hcontains)
      (Nat.le_trans hcontains.height_le hheight)
  unfold join?
  rw [Node.findChild?_recast, hr.joinKind?, hcondition, hc.excerptOf hn.laid]
  apply bind_map_congr
  intro m hm
  have hcontains := Node.Contains.of_findChild? hm
  rw [tableItem_recast hc hr hnested (hn.of_contains hcontains)
    (Nat.le_trans hcontains.height_le hheight)]
  cases r.joinKind? n with
  | none => rfl
  | some kind => cases kind <;> simp [JoinKind.join, Join.recast, recastJoinCondition_eq]

theorem joinedTable?_recast (hn : n.Fits text w c r.comparisonOperator) (hheight : n.height ≤ height) :
    joinedTable? r c' nested' (n.recast g) =
      (joinedTable? r c nested n).map (JoinedTable.recast f w) := by
  have hjoins : ((n.recast g).childrenThat r.isJoin).filterMap (join? r c' nested') =
      ((n.childrenThat r.isJoin).filterMap (join? r c nested)).map (Join.recast f w) := by
    rw [Node.childrenThat_recast]
    apply filterMap_map_congr
    intro m hm
    have hcontains := Node.Contains.of_childrenThat hm
    exact join?_recast hc hr hnested (hn.of_contains hcontains)
      (Nat.le_trans hcontains.height_le hheight)
  unfold joinedTable?
  rw [Node.firstChild?_recast, hjoins, hc.excerptOf hn.laid]
  apply bind_map_congr
  intro m hm
  have hcontains := Node.Contains.of_firstChild? hm
  rw [tableItem_recast hc hr hnested (hn.of_contains hcontains)
    (Nat.le_trans hcontains.height_le hheight)]
  simp [JoinedTable.recast, recastJoins_eq]

theorem tableSource_recast (hn : n.Fits text w c r.comparisonOperator) (hheight : n.height ≤ height) :
    tableSource r c' nested' (n.recast g) = (tableSource r c nested n).recast f w := by
  unfold tableSource
  rw [Node.rule_recast, joinedTable?_recast hc hr hnested hn hheight, hc.unstructured hn.laid]
  by_cases hrule : n.rule = r.tableSource
  · rw [if_pos hrule, if_pos hrule]
    cases joinedTable? r c nested n <;> rfl
  · rw [if_neg hrule, if_neg hrule]
    rfl

theorem tableSources_recast (hn : n.Fits text w c r.comparisonOperator) (hheight : n.height ≤ height) :
    tableSources r c' nested' (n.recast g) = (tableSources r c nested n).recast f w := by
  have hsources : (n.recast g).childNodes.map (tableSource r c' nested') =
      (n.childNodes.map (tableSource r c nested)).map (TableSource.recast f w) := by
    rw [Node.childNodes_recast, List.map_map, List.map_map]
    apply List.map_congr_left
    intro m hm
    exact tableSource_recast hc hr hnested (hn.child hm)
      (Nat.le_trans (Nat.le_of_lt (Node.height_lt_of_mem_childNodes hm)) hheight)
  unfold tableSources
  rw [hsources, hc.excerptOf hn.laid]
  simp [TableSources.recast, recastSources_eq]

/-! Expressions -/

omit hc hr in
omit [Production ρ] in
theorem inSource?_recast (hn : n.Fits text w c r.comparisonOperator) (hheight : n.height ≤ height) :
    inSource? r nested' (n.recast g) = (inSource? r nested n).map (InSource.recast f w) := by
  unfold inSource?
  rw [Node.findChild?_recast, Node.child?_recast]
  cases hselect : n.findChild? r.isSelect with
  | some m =>
    have hm := Node.mem_childNodes_of_findChild? hselect
    have hread := hnested.select? (hn.child hm)
      (Nat.lt_of_lt_of_le (Node.height_lt_of_mem_childNodes hm) hheight)
    change InSource.select <$> nested'.select? (m.recast g) =
      (InSource.select <$> nested.select? m).map (InSource.recast f w)
    rw [hread]
    cases nested.select? m <;> rfl
  | none =>
    apply bind_map_congr
    intro m hm
    have hm := Node.mem_childNodes_of_child? hm
    have hread : ∀ k ∈ m.childNodes,
        nested'.expression (k.recast g) = (nested.expression k).recast f w := by
      intro k hk
      exact hnested.expression ((hn.child hm).child hk) (Nat.lt_of_lt_of_le
        (Nat.lt_trans (Node.height_lt_of_mem_childNodes hk) (Node.height_lt_of_mem_childNodes hm))
        hheight)
    rw [Node.childNodes_recast, List.map_map]
    have hlist : m.childNodes.map (nested'.expression ∘ Node.recast g) =
        (m.childNodes.map nested.expression).map (Expr.recast f w) := by
      rw [List.map_map]
      exact List.map_congr_left hread
    rw [hlist]
    simp [InSource.recast, recastExprs_eq]

omit hr in
omit [Production ρ] in
theorem among?_recast (hn : n.Fits text w c r.comparisonOperator) (hheight : n.height ≤ height) :
    among? r c' nested' (n.recast g) = (among? r c nested n).map (Predicate.recast f w) := by
  unfold among?
  rw [Node.findChild?_recast, inSource?_recast hnested hn hheight, hc.excerptOf hn.laid,
    Node.hasKeyword_recast]
  apply bind_map_congr
  intro m hm
  have hm := Node.mem_childNodes_of_findChild? hm
  rw [hnested.predicate (hn.child hm)
    (Nat.lt_of_lt_of_le (Node.height_lt_of_mem_childNodes hm) hheight)]
  cases inSource? r nested n <;> rfl

omit hr hnested in
omit [Production ρ] in
theorem textOf_operator (hn : n.Fits text w c r.comparisonOperator) {m : Node ρ}
    (hm : n.child? r.comparisonOperator = some m) : c'.text (m.recast g) = c.text m := by
  have hcontains := Node.Contains.of_child? hm
  rw [hc.textOf (hn.of_contains hcontains).laid]
  exact hn.unchanged hcontains (Node.rule_of_child? hm)

omit hr in
omit [Production ρ] in
theorem comparison?_recast (hn : n.Fits text w c r.comparisonOperator) (hheight : n.height ≤ height) :
    comparison? r c' nested' (n.recast g) =
      (comparison? r c nested n).map (Predicate.recast f w) := by
  have hread : ∀ m ∈ n.childrenThat r.isPredicate,
      nested'.predicate (m.recast g) = (nested.predicate m).recast f w := by
    intro m hm
    have hm := Node.mem_childNodes_of_mem_childrenThat hm
    exact hnested.predicate (hn.child hm)
      (Nat.lt_of_lt_of_le (Node.height_lt_of_mem_childNodes hm) hheight)
  unfold comparison?
  rw [Node.childrenThat_recast, Node.child?_recast, hc.excerptOf hn.laid]
  generalize n.childrenThat r.isPredicate = operands at hread
  match operands, hread with
  | [], _ => rfl
  | [_], _ => rfl
  | left :: right :: _, hread =>
    apply bind_map_congr
    intro m hm
    rw [hread left (by simp), hread right (by simp),
      textOf_operator hc hn hm]
    rfl

theorem predicate_recast (hn : n.Fits text w c r.comparisonOperator) (hheight : n.height ≤ height) :
    predicate r c' nested' (n.recast g) = (predicate r c nested n).recast f w := by
  have hatom : (Predicate.atom (c'.excerptOf (n.recast g)) <| r.atom c' ·) <$>
      r.atom? (n.recast g) =
      ((Predicate.atom (c.excerptOf n) <| r.atom c ·) <$> r.atom? n).map
        (Predicate.recast f w) := by
    rw [hr.atom?, hc.excerptOf hn.laid]
    apply map_map_congr
    intro m hm
    rw [hr.atom (hn.of_contains (hr.atom?_mem hm)).laid]
    rfl
  unfold predicate
  rw [Node.rule_recast, comparison?_recast hc hnested hn hheight,
    among?_recast hc hnested hn hheight, hatom, hc.unstructured hn.laid]
  split
  · cases comparison? r c nested n <;> rfl
  · split
    · cases among? r c nested n <;> rfl
    · split
      · cases r.atom? n <;> rfl
      · rfl

theorem expression_recast (hn : n.Fits text w c r.comparisonOperator) (hheight : n.height ≤ height) :
    expression r c' nested' (n.recast g) = (expression r c nested n).recast f w := by
  have hoperands : ((n.recast g).childrenThat r.isExpression).map nested'.expression =
      ((n.childrenThat r.isExpression).map nested.expression).map (Expr.recast f w) := by
    rw [Node.childrenThat_recast, List.map_map, List.map_map]
    apply List.map_congr_left
    intro m hm
    have hm := Node.mem_childNodes_of_mem_childrenThat hm
    exact hnested.expression (hn.child hm)
      (Nat.lt_of_lt_of_le (Node.height_lt_of_mem_childNodes hm) hheight)
  unfold expression
  rw [hr.connective? hn.laid, hoperands, hc.excerptOf hn.laid, hc.unstructured hn.laid, Node.rule_recast,
    Node.firstChild?_recast]
  cases r.connective? c n with
  | some operator => simp [Expr.recast, recastExprs_eq]
  | none =>
    by_cases hrule : n.rule = r.predicateExpression
    · simp only [if_pos hrule]
      cases hfirst : n.firstChild? with
      | none => rfl
      | some m =>
        have hm := Node.mem_childNodes_of_firstChild? hfirst
        have hread := hnested.predicate (hn.child hm)
          (Nat.lt_of_lt_of_le (Node.height_lt_of_mem_childNodes hm) hheight)
        simp [Expr.recast, hread]
    · simp only [if_neg hrule]
      rfl

end Reading

namespace Reader

variable [DecidableEq ρ] [Production ρ] {r : Roles ρ} (hc : c.Recasts text g f w c')
  (hr : r.Recasts text g f w c c')

include hc hr

theorem attempt_recasts {height : Nat} {nested nested' : Reader ρ}
    (h : nested.Recasts text g f w c r.comparisonOperator height nested') :
    (attempt r c nested).Recasts text g f w c r.comparisonOperator (height + 1)
      (attempt r c' nested') where
  select? hn hheight := Reading.selectStatement?_recast hc hr h hn (Nat.le_of_lt_succ hheight)
  union? hn hheight := Reading.unionSelect?_recast hc hr h hn (Nat.le_of_lt_succ hheight)
  group? hn hheight := Reading.queryGroup?_recast hc hr h hn (Nat.le_of_lt_succ hheight)
  tables hn hheight := Reading.tableSources_recast hc hr h hn (Nat.le_of_lt_succ hheight)
  expression hn hheight := Reading.expression_recast hc hr h hn (Nat.le_of_lt_succ hheight)
  predicate hn hheight := Reading.predicate_recast hc hr h hn (Nat.le_of_lt_succ hheight)

theorem ofDepth_recasts {depth depth' height : Nat} (hdepth : height ≤ depth + 1)
    (hdepth' : height ≤ depth' + 1) :
    (ofDepth r c depth).Recasts text g f w c r.comparisonOperator height (ofDepth r c' depth') := by
  induction height generalizing depth depth' with
  | zero => constructor <;> (intros; contradiction)
  | succ height ih =>
    have hpositive : ∀ n : Node ρ, 0 < n.height := by
      intro n
      cases n
      rw [Node.height]
      exact Nat.succ_pos _
    cases height with
    | zero =>
      constructor <;> (intro n _ hheight; exact absurd (hpositive n) (by omega))
    | succ height =>
      cases depth with
      | zero => omega
      | succ depth =>
        cases depth' with
        | zero => omega
        | succ depth' => exact attempt_recasts hc hr (ih (by omega) (by omega))

end Reader

end SqlScript
