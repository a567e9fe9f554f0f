import SqlScript.Proofs.Layout
import SqlScript.Proofs.Parts
import SqlScript.Statement.Reading

/-!
What is read from a production lies where the production lies, part by part.
-/

namespace SqlScript

open SqlScript.Tree
open SqlScript.Part (tail forall_mem_optional)

namespace Tree.Node

variable {ρ : Type} {n m k : Node ρ}

theorem Contains.trans (h : n.Contains m) (h' : m.Contains k) : n.Contains k := by
  induction h with
  | refl => exact h'
  | child hm _ ih => exact .child hm (ih h')

theorem Contains.of_mem (h : m ∈ n.childNodes) : n.Contains m :=
  .child h (.refl m)

theorem Contains.of_child? [DecidableEq ρ] {rule : ρ} (h : n.child? rule = some m) : n.Contains m :=
  .of_mem (mem_childNodes_of_child? h)

theorem Contains.of_findChild? {p : ρ → Bool} (h : n.findChild? p = some m) : n.Contains m :=
  .of_mem (mem_childNodes_of_findChild? h)

theorem Contains.of_firstChild? (h : n.firstChild? = some m) : n.Contains m :=
  .of_mem (mem_childNodes_of_firstChild? h)

theorem Contains.of_childrenThat {p : ρ → Bool} (h : m ∈ n.childrenThat p) : n.Contains m :=
  .of_mem (mem_childNodes_of_mem_childrenThat h)

theorem Contains.of_childrenOf [DecidableEq ρ] {rule : ρ} (h : m ∈ n.childrenOf rule) :
    n.Contains m :=
  .of_mem (mem_childNodes_of_mem_childrenOf h)

end Tree.Node

variable {ρ : Type} {r : Roles ρ} {c : Context} {text : List Char} {good : Excerpt → Prop}

/--
The roles of a grammar find nothing but what is inside of a production.
-/
structure Roles.Inward (r : Roles ρ) : Prop where
  partOperand? {n m : Node ρ} : r.partOperand? n = some m → n.Contains m
  tables? {n m : Node ρ} : r.tables? n = some m → n.Contains m
  rowCondition? {n m : Node ρ} : r.rowCondition? n = some m → n.Contains m
  atom? {n m : Node ρ} : r.atom? n = some m → n.Contains m

/--
The roles of a grammar find parts where they look for them.
-/
structure Roles.Sound (r : Roles ρ) (c : Context) (text : List Char) (good : Excerpt → Prop) :
    Prop extends r.Inward where
  element? {n : Node ρ} {e : SelectElement} : (Element.node n).Laid text →
    r.element? c n = some e → (Part.element e).From good n.span
  limit {n : Node ρ} : (Element.node n).Laid text → (Part.limit (r.limit c n)).From good n.span
  namedTable? {n : Node ρ} {t : NamedTable} : (Element.node n).Laid text →
    r.namedTable? c n = some t → (Part.item (.named t)).From good n.span
  atom {n : Node ρ} : (Element.node n).Laid text → (Part.atom (r.atom c n)).From good n.span

structure Reader.Sound (reader : Reader ρ) (text : List Char) (good : Excerpt → Prop) : Prop where
  select? {n : Node ρ} {s : Select} : (Element.node n).Laid text → reader.select? n = some s →
    (Part.select s).From good n.span
  union? {n : Node ρ} {s : UnionSelect} : (Element.node n).Laid text → reader.union? n = some s →
    (Part.unionSelect s).From good n.span
  group? {n : Node ρ} {g : QueryGroup} : (Element.node n).Laid text → reader.group? n = some g →
    (Part.group g).From good n.span
  tables {n : Node ρ} : (Element.node n).Laid text →
    (Part.tables (reader.tables n)).From good n.span
  expression {n : Node ρ} : (Element.node n).Laid text →
    (Part.expr (reader.expression n)).From good n.span
  predicate {n : Node ρ} : (Element.node n).Laid text →
    (Part.predicate (reader.predicate n)).From good n.span

namespace Reading

variable [DecidableEq ρ] [Production ρ] {nested : Reader ρ} {n : Node ρ}

omit [DecidableEq ρ] [Production ρ] in
theorem tableName_from (hc : c.Cuts text good) {s : Span} (hs : s.Proper text) {name : DottedName}
    (h : name.excerpt = c.excerpt s) : (Part.tableName name.toTableName).From good s :=
  .leaf hc hs h rfl rfl

omit [DecidableEq ρ] [Production ρ] in
theorem columnName_from (hc : c.Cuts text good) {s : Span} (hs : s.Proper text) {name : DottedName}
    (h : name.excerpt = c.excerpt s) : (Part.columnName name.toColumnName).From good s :=
  .leaf hc hs h rfl rfl

omit [DecidableEq ρ] in
theorem unstructured_from (hc : c.Cuts text good) (hn : (Element.node n).Laid text) :
    (Part.unstructured (c.unstructured n)).From good n.span :=
  .leaf hc hn.proper rfl rfl rfl

theorem unstructured?_from (hc : c.Cuts text good) (hn : (Element.node n).Laid text) {rule : ρ}
    {body : Unstructured} (h : unstructured? c n rule = some body) :
    (Part.unstructured body).From good n.span := by
  obtain ⟨m, hm, rfl⟩ := Option.map_eq_some_iff.1 h
  have hcontains := Node.Contains.of_child? hm
  exact (unstructured_from hc (hn.of_contains hcontains)).within (hn.within hcontains)

omit [Production ρ] in
theorem limit?_from (hr : r.Sound c text good) (hn : (Element.node n).Laid text) {l : Limit}
    (h : limit? r c n = some l) : (Part.limit l).From good n.span := by
  obtain ⟨m, hm, rfl⟩ := Option.map_eq_some_iff.1 h
  have hcontains := Node.Contains.of_child? hm
  exact (hr.limit (hn.of_contains hcontains)).within (hn.within hcontains)

theorem tail_from (hc : c.Cuts text good) (hr : r.Sound c text good)
    (hn : (Element.node n).Laid text) (orderBy : ρ) :
    ∀ p ∈ tail (unstructured? c n orderBy) (limit? r c n), p.From good n.span := by
  unfold tail
  rw [List.forall_mem_append, forall_mem_optional, forall_mem_optional]
  exact ⟨fun _ => unstructured?_from hc hn, fun _ => limit?_from hr hn⟩

omit [DecidableEq ρ] [Production ρ] in
theorem selectElements_from (hc : c.Cuts text good) (hr : r.Sound c text good)
    (hn : (Element.node n).Laid text) :
    (Part.elements (selectElements r c n)).From good n.span := by
  apply Part.From.intro hc hn.proper rfl
  · simp only [Part.pieces, SelectElements.pieces, List.forall_mem_cons, List.forall_mem_map]
    refine ⟨.excerpt hc hn.proper, ?_⟩
    intro e he
    obtain ⟨m, hm, hread⟩ := List.mem_filterMap.1 he
    exact (hr.element? (hn.child hm) hread).within (hn.child_within hm)
  · simp [Part.groups]

omit [DecidableEq ρ] [Production ρ] in
theorem condition?_from (hnested : nested.Sound text good) (hn : (Element.node n).Laid text)
    {x : Expr} (h : condition? r nested n = some x) : (Part.expr x).From good n.span := by
  obtain ⟨m, hm, rfl⟩ := Option.map_eq_some_iff.1 h
  have hcontains := Node.Contains.of_findChild? hm
  exact (hnested.expression (hn.of_contains hcontains)).within (hn.within hcontains)

omit [DecidableEq ρ] [Production ρ] in
theorem clause_condition?_from (hnested : nested.Sound text good)
    (hn : (Element.node n).Laid text) {clause? : Option (Node ρ)}
    (hclause : ∀ m, clause? = some m → n.Contains m) {x : Expr}
    (h : clause? >>= condition? r nested = some x) : (Part.expr x).From good n.span := by
  obtain ⟨m, hm, hx⟩ := Option.bind_eq_some_iff.1 h
  have hcontains := hclause m hm
  exact (condition?_from hnested (hn.of_contains hcontains) hx).within (hn.within hcontains)

theorem specification?_from (hc : c.Cuts text good) (hr : r.Sound c text good)
    (hnested : nested.Sound text good) (hn : (Element.node n).Laid text) {q : QuerySpecification}
    (h : specification? r c nested n = some q) : (Part.specification q).From good n.span := by
  obtain ⟨elements, helements, hq⟩ := Option.bind_eq_some_iff.1 h
  cases hq
  have helements := Node.Contains.of_child? helements
  apply Part.From.intro hc hn.proper rfl
  · simp only [Part.pieces, QuerySpecification.pieces, List.forall_mem_append, List.forall_mem_cons,
      forall_mem_optional, List.not_mem_nil, false_implies, implies_true, and_true]
    refine ⟨⟨⟨⟨⟨⟨.excerpt hc hn.proper, ?_⟩, ?_⟩, ?_⟩, ?_⟩, ?_⟩, tail_from hc hr hn _⟩
    · exact (selectElements_from hc hr (hn.of_contains helements)).within (hn.within helements)
    · intro tables htables
      obtain ⟨m, hm, rfl⟩ := Option.map_eq_some_iff.1 htables
      have hcontains := hr.tables? hm
      exact (hnested.tables (hn.of_contains hcontains)).within (hn.within hcontains)
    · intro x hx
      exact clause_condition?_from hnested hn (fun _ => hr.rowCondition?) hx
    · intro body hbody
      exact unstructured?_from hc hn hbody
    · intro x hx
      exact clause_condition?_from hnested hn (fun _ => Node.Contains.of_child?) hx
  · simp [Part.groups]

theorem operand_from (hc : c.Cuts text good) (hr : r.Sound c text good)
    (hnested : nested.Sound text good) (hn : (Element.node n).Laid text) :
    (Part.operand (operand r c nested n)).From good n.span := by
  have hunstructured : (Part.operand (.unstructured (c.unstructured n))).From good n.span :=
    .only (unstructured_from hc hn) rfl rfl rfl
  unfold operand
  dsimp only
  split
  · exact hunstructured
  split
  · cases h : specification? r c nested n with
    | none => exact hunstructured
    | some q => exact .only (specification?_from hc hr hnested hn h) rfl rfl rfl
  split
  · cases h : nested.group? n with
    | none => exact hunstructured
    | some g => exact .only (hnested.group? hn h) rfl rfl rfl
  · cases h : nested.union? n with
    | none => exact hunstructured
    | some s => exact .only (hnested.union? hn h) rfl rfl rfl

theorem unionPart?_from (hc : c.Cuts text good) (hr : r.Sound c text good)
    (hnested : nested.Sound text good) (hn : (Element.node n).Laid text) {p : UnionPart}
    (h : unionPart? r c nested n = some p) :
    p.excerpt.span = n.span ∧ ∀ q ∈ p.pieces, q.From good n.span := by
  unfold unionPart? at h
  obtain ⟨first, _, h⟩ := Option.bind_eq_some_iff.1 h
  obtain ⟨last, _, h⟩ := Option.bind_eq_some_iff.1 h
  obtain ⟨m, hm, h⟩ := Option.bind_eq_some_iff.1 h
  cases h
  have hcontains := hr.partOperand? hm
  refine ⟨hc.span hn.span, ?_⟩
  simp only [UnionPart.pieces, List.forall_mem_cons, List.not_mem_nil, false_implies, implies_true,
    and_true]
  refine ⟨.excerpt hc hn.proper, ?_⟩
  exact (operand_from hc hr hnested (hn.of_contains hcontains)).within (hn.within hcontains)

theorem unionSelect?_from (hc : c.Cuts text good) (hr : r.Sound c text good)
    (hnested : nested.Sound text good) (hn : (Element.node n).Laid text) {s : UnionSelect}
    (h : unionSelect? r c nested n = some s) : (Part.unionSelect s).From good n.span := by
  obtain ⟨first, hfirst, h⟩ := Option.bind_eq_some_iff.1 h
  cases h
  have hfirst := Node.Contains.of_findChild? hfirst
  have hparts : ∀ p ∈ (n.childrenOf r.unionPart).filterMap (unionPart? r c nested),
      ∀ q ∈ p.pieces, q.From good n.span ∧ q.origin.span.Within p.excerpt.span := by
    intro p hp q hq
    obtain ⟨m, hm, hread⟩ := List.mem_filterMap.1 hp
    have hcontains := Node.Contains.of_childrenOf hm
    obtain ⟨hspan, hpieces⟩ := unionPart?_from hc hr hnested (hn.of_contains hcontains) hread
    refine ⟨(hpieces q hq).within (hn.within hcontains), ?_⟩
    rw [hspan]
    exact (hpieces q hq).inside
  apply Part.From.intro hc hn.proper rfl
  · simp only [Part.pieces, UnionSelect.pieces, List.forall_mem_append, List.forall_mem_cons,
      List.forall_mem_flatMap, List.not_mem_nil, false_implies, implies_true, and_true]
    refine ⟨⟨⟨.excerpt hc hn.proper, ?_⟩, ?_⟩, tail_from hc hr hn _⟩
    · exact (operand_from hc hr hnested (hn.of_contains hfirst)).within (hn.within hfirst)
    · intro p hp q hq
      exact (hparts p hp q hq).1
  · simp only [Part.groups, List.forall_mem_map]
    intro p hp q hq
    exact (hparts p hp q hq).2

theorem queryGroup?_from (hc : c.Cuts text good) (hr : r.Sound c text good)
    (hnested : nested.Sound text good) (hn : (Element.node n).Laid text) {g : QueryGroup}
    (h : queryGroup? r c nested n = some g) : (Part.group g).From good n.span := by
  obtain ⟨body, hbody, h⟩ := Option.bind_eq_some_iff.1 h
  cases h
  obtain ⟨m, hm, hbody⟩ := Option.bind_eq_some_iff.1 hbody
  have hcontains := Node.Contains.of_firstChild? hm
  have hm := hn.of_contains hcontains
  have hpieces : ∀ q ∈ body.pieces, q.From good m.span := by
    unfold queryBody? at hbody
    split at hbody
    · obtain ⟨q, hq, rfl⟩ := Option.map_eq_some_iff.1 hbody
      simp only [QueryBody.pieces, List.forall_mem_singleton]
      exact specification?_from hc hr hnested hm hq
    split at hbody
    · obtain ⟨s, hs, rfl⟩ := Option.map_eq_some_iff.1 hbody
      simp only [QueryBody.pieces, List.forall_mem_singleton]
      exact hnested.union? hm hs
    split at hbody
    · obtain ⟨g, hg, rfl⟩ := Option.map_eq_some_iff.1 hbody
      simp only [QueryBody.pieces, List.forall_mem_singleton]
      exact hnested.group? hm hg
    · contradiction
  apply Part.From.intro hc hn.proper rfl
  · simp only [Part.pieces, QueryGroup.pieces, List.forall_mem_cons]
    refine ⟨.excerpt hc hn.proper, ?_⟩
    intro q hq
    exact (hpieces q hq).within (hn.within hcontains)
  · simp [Part.groups]

theorem simpleSelect?_from (hc : c.Cuts text good) (hr : r.Sound c text good)
    (hnested : nested.Sound text good) (hn : (Element.node n).Laid text) {s : SimpleSelect}
    (h : simpleSelect? r c nested n = some s) : (Part.simpleSelect s).From good n.span := by
  obtain ⟨query, hquery, h⟩ := Option.bind_eq_some_iff.1 h
  cases h
  obtain ⟨m, hm, hread⟩ := Option.bind_eq_some_iff.1 hquery
  have hcontains := Node.Contains.of_child? hm
  apply Part.From.intro hc hn.proper rfl
  · simp only [Part.pieces, SimpleSelect.pieces, List.forall_mem_append, List.forall_mem_cons,
      forall_mem_optional, List.not_mem_nil, false_implies, implies_true, and_true]
    refine ⟨⟨.excerpt hc hn.proper, ?_⟩, fun _ => unstructured?_from hc hn⟩
    exact (specification?_from hc hr hnested (hn.of_contains hcontains) hread).within
      (hn.within hcontains)
  · simp [Part.groups]

theorem parenthesisSelect?_from (hc : c.Cuts text good) (hr : r.Sound c text good)
    (hnested : nested.Sound text good) (hn : (Element.node n).Laid text) {s : ParenthesisSelect}
    (h : parenthesisSelect? r c nested n = some s) :
    (Part.parenthesisSelect s).From good n.span := by
  obtain ⟨group, hgroup, h⟩ := Option.bind_eq_some_iff.1 h
  cases h
  obtain ⟨m, hm, hread⟩ := Option.bind_eq_some_iff.1 hgroup
  have hcontains := Node.Contains.of_child? hm
  apply Part.From.intro hc hn.proper rfl
  · simp only [Part.pieces, ParenthesisSelect.pieces, List.forall_mem_append, List.forall_mem_cons,
      List.not_mem_nil, false_implies, implies_true, and_true]
    refine ⟨⟨.excerpt hc hn.proper, ?_⟩, tail_from hc hr hn _⟩
    exact (hnested.group? (hn.of_contains hcontains) hread).within (hn.within hcontains)
  · simp [Part.groups]

theorem selectStatement?_from (hc : c.Cuts text good) (hr : r.Sound c text good)
    (hnested : nested.Sound text good) (hn : (Element.node n).Laid text) {s : Select}
    (h : selectStatement? r c nested n = some s) : (Part.select s).From good n.span := by
  unfold selectStatement? at h
  split at h
  · obtain ⟨s, hs, rfl⟩ := Option.map_eq_some_iff.1 h
    exact .only (simpleSelect?_from hc hr hnested hn hs) rfl rfl rfl
  split at h
  · obtain ⟨s, hs, rfl⟩ := Option.map_eq_some_iff.1 h
    exact .only (unionSelect?_from hc hr hnested hn hs) rfl rfl rfl
  split at h
  · obtain ⟨s, hs, rfl⟩ := Option.map_eq_some_iff.1 h
    exact .only (parenthesisSelect?_from hc hr hnested hn hs) rfl rfl rfl
  · contradiction

-- Tables

omit [DecidableEq ρ] [Production ρ] in
theorem subqueryTable?_from (hc : c.Cuts text good) (hnested : nested.Sound text good)
    (hn : (Element.node n).Laid text) {t : SubqueryTable}
    (h : subqueryTable? r c nested n = some t) : (Part.item (.subquery t)).From good n.span := by
  obtain ⟨select, hselect, h⟩ := Option.bind_eq_some_iff.1 h
  cases h
  obtain ⟨m, hm, hread⟩ := Option.bind_eq_some_iff.1 hselect
  have hcontains := Node.Contains.of_findChild? hm
  apply Part.From.intro hc hn.proper rfl
  · simp only [Part.pieces, TableItem.pieces, List.forall_mem_cons, List.not_mem_nil, false_implies,
      implies_true, and_true]
    refine ⟨.excerpt hc hn.proper, ?_⟩
    exact (hnested.select? (hn.of_contains hcontains) hread).within (hn.within hcontains)
  · simp [Part.groups]

theorem tableItem_from (hc : c.Cuts text good) (hr : r.Sound c text good)
    (hnested : nested.Sound text good) (hn : (Element.node n).Laid text) :
    (Part.item (tableItem r c nested n)).From good n.span := by
  have hunstructured : (Part.item (.unstructured (c.unstructured n))).From good n.span :=
    .only (unstructured_from hc hn) rfl rfl rfl
  unfold tableItem
  dsimp only
  split
  · cases h : r.namedTable? c n with
    | none => exact hunstructured
    | some t => exact hr.namedTable? hn h
  split
  · cases h : subqueryTable? r c nested n with
    | none => exact hunstructured
    | some t => exact subqueryTable?_from hc hnested hn h
  split
  · cases h : n.child? r.tableList with
    | none => exact hunstructured
    | some m =>
      have hcontains := Node.Contains.of_child? h
      apply Part.From.within _ (hn.within hcontains)
      exact .only (hnested.tables (hn.of_contains hcontains)) rfl rfl rfl
  · exact hunstructured

omit [Production ρ] in
theorem joinCondition?_from (hc : c.Cuts text good) (hnested : nested.Sound text good)
    (hn : (Element.node n).Laid text) {j : JoinCondition}
    (h : joinCondition? r c nested n = some j) : (Part.joinCondition j).From good n.span := by
  unfold joinCondition? at h
  split at h
  · obtain ⟨x, hx, rfl⟩ := Option.map_eq_some_iff.1 h
    apply Part.From.intro hc hn.proper rfl
    · simp only [Part.pieces, JoinCondition.pieces, List.forall_mem_cons, List.not_mem_nil,
        false_implies, implies_true, and_true]
      exact ⟨.excerpt hc hn.proper, condition?_from hnested hn hx⟩
    · simp [Part.groups]
  · obtain ⟨names, _, rfl⟩ := Option.map_eq_some_iff.1 h
    exact .leaf hc hn.proper rfl rfl rfl

theorem join?_from (hc : c.Cuts text good) (hr : r.Sound c text good)
    (hnested : nested.Sound text good) (hn : (Element.node n).Laid text) {j : Join}
    (h : join? r c nested n = some j) : (Part.join j).From good n.span := by
  obtain ⟨m, hm, h⟩ := Option.bind_eq_some_iff.1 h
  obtain ⟨kind, _, h⟩ := Option.bind_eq_some_iff.1 h
  cases h
  have hcontains := Node.Contains.of_findChild? hm
  have hitem := (tableItem_from hc hr hnested (hn.of_contains hcontains)).within
    (hn.within hcontains)
  have hcondition : ∀ j, n.child? r.joinCondition >>= joinCondition? r c nested = some j →
      (Part.joinCondition j).From good n.span := by
    intro j hj
    obtain ⟨k, hk, hread⟩ := Option.bind_eq_some_iff.1 hj
    have hcontains := Node.Contains.of_child? hk
    exact (joinCondition?_from hc hnested (hn.of_contains hcontains) hread).within
      (hn.within hcontains)
  -- A natural join has no condition, whatever stands there.
  cases kind with
  | natural side =>
    apply Part.From.intro hc hn.proper rfl
    · simp only [Part.pieces, Join.pieces, Join.excerpt, Join.item, Join.condition, JoinKind.join,
        Part.optional, List.forall_mem_append, List.forall_mem_cons, List.not_mem_nil,
        false_implies, implies_true, and_true]
      exact ⟨.excerpt hc hn.proper, hitem⟩
    · simp [Part.groups]
  | _ =>
    apply Part.From.intro hc hn.proper rfl
    · simp only [Part.pieces, Join.pieces, Join.excerpt, Join.item, Join.condition, JoinKind.join,
        List.forall_mem_append, List.forall_mem_cons, forall_mem_optional, List.not_mem_nil,
        false_implies, implies_true, and_true]
      exact ⟨⟨.excerpt hc hn.proper, hitem⟩, hcondition⟩
    · simp [Part.groups]

theorem tableSource_from (hc : c.Cuts text good) (hr : r.Sound c text good)
    (hnested : nested.Sound text good) (hn : (Element.node n).Laid text) :
    (Part.source (tableSource r c nested n)).From good n.span := by
  unfold tableSource
  split
  · rename_i source hsource
    split at hsource
    · obtain ⟨m, hm, h⟩ := Option.bind_eq_some_iff.1 hsource
      cases h
      have hcontains := Node.Contains.of_firstChild? hm
      apply Part.From.intro hc hn.proper rfl
      · simp only [Part.pieces, TableSource.pieces, List.forall_mem_append, List.forall_mem_cons,
          List.forall_mem_map, List.not_mem_nil, false_implies, implies_true, and_true]
        refine ⟨⟨.excerpt hc hn.proper, ?_⟩, ?_⟩
        · exact (tableItem_from hc hr hnested (hn.of_contains hcontains)).within
            (hn.within hcontains)
        · intro j hj
          obtain ⟨k, hk, hread⟩ := List.mem_filterMap.1 hj
          have hcontains := Node.Contains.of_childrenThat hk
          exact (join?_from hc hr hnested (hn.of_contains hcontains) hread).within
            (hn.within hcontains)
      · simp [Part.groups]
    · contradiction
  · exact .only (unstructured_from hc hn) rfl rfl rfl

theorem tableSources_from (hc : c.Cuts text good) (hr : r.Sound c text good)
    (hnested : nested.Sound text good) (hn : (Element.node n).Laid text) :
    (Part.tables (tableSources r c nested n)).From good n.span := by
  apply Part.From.intro hc hn.proper rfl
  · simp only [Part.pieces, TableSources.pieces, tableSources, List.forall_mem_cons,
      List.forall_mem_map]
    refine ⟨.excerpt hc hn.proper, ?_⟩
    intro m hm
    exact (tableSource_from hc hr hnested (hn.child hm)).within (hn.child_within hm)
  · simp [Part.groups]

omit [DecidableEq ρ] [Production ρ] in
theorem lone_from (hc : c.Cuts text good) {s : Span} (hs : s.Proper text) {item : TableItem}
    (h : (Part.item item).From good s) :
    (Part.source (.base ⟨c.excerpt s, item, []⟩)).From good s := by
  apply Part.From.intro hc hs rfl
  · simp only [Part.pieces, TableSource.pieces, List.map_nil, List.append_nil, List.forall_mem_cons,
      List.not_mem_nil, false_implies, implies_true, and_true]
    exact ⟨.excerpt hc hs, h⟩
  · simp [Part.groups]

-- Expressions

omit [Production ρ] in
theorem inSource?_from (hnested : nested.Sound text good) (hn : (Element.node n).Laid text)
    {source : InSource} (h : inSource? r nested n = some source) :
    ∀ q ∈ source.pieces, q.From good n.span := by
  unfold inSource? at h
  split at h
  · rename_i m hm
    obtain ⟨s, hs, rfl⟩ := Option.map_eq_some_iff.1 h
    have hcontains := Node.Contains.of_findChild? hm
    simp only [InSource.pieces, List.forall_mem_singleton]
    exact (hnested.select? (hn.of_contains hcontains) hs).within (hn.within hcontains)
  · obtain ⟨list, hlist, h⟩ := Option.bind_eq_some_iff.1 h
    cases h
    simp only [InSource.pieces, List.forall_mem_map]
    intro m hm
    have hcontains := (Node.Contains.of_child? hlist).trans (.of_mem hm)
    exact (hnested.expression (hn.of_contains hcontains)).within (hn.within hcontains)

omit [Production ρ] in
theorem among?_from (hc : c.Cuts text good) (hnested : nested.Sound text good)
    (hn : (Element.node n).Laid text) {p : Predicate} (h : among? r c nested n = some p) :
    (Part.predicate p).From good n.span := by
  obtain ⟨subject, hsubject, h⟩ := Option.bind_eq_some_iff.1 h
  obtain ⟨source, hsource, h⟩ := Option.bind_eq_some_iff.1 h
  cases h
  have hcontains := Node.Contains.of_findChild? hsubject
  apply Part.From.intro hc hn.proper rfl
  · simp only [Part.pieces, Predicate.pieces, List.forall_mem_append, List.forall_mem_cons,
      List.not_mem_nil, false_implies, implies_true, and_true]
    refine ⟨⟨.excerpt hc hn.proper, ?_⟩, inSource?_from hnested hn hsource⟩
    exact (hnested.predicate (hn.of_contains hcontains)).within (hn.within hcontains)
  · simp [Part.groups]

omit [Production ρ] in
theorem comparison?_from (hc : c.Cuts text good) (hnested : nested.Sound text good)
    (hn : (Element.node n).Laid text) {p : Predicate} (h : comparison? r c nested n = some p) :
    (Part.predicate p).From good n.span := by
  unfold comparison? at h
  split at h
  · rename_i left right rest hchildren
    obtain ⟨operator, _, h⟩ := Option.bind_eq_some_iff.1 h
    cases h
    have hoperand : ∀ m ∈ n.childrenThat r.isPredicate,
        (Part.predicate (nested.predicate m)).From good n.span := by
      intro m hm
      have hcontains := Node.Contains.of_childrenThat hm
      exact (hnested.predicate (hn.of_contains hcontains)).within (hn.within hcontains)
    rw [hchildren] at hoperand
    apply Part.From.intro hc hn.proper rfl
    · simp only [Part.pieces, Predicate.pieces, List.forall_mem_cons, List.not_mem_nil,
        false_implies, implies_true, and_true]
      exact ⟨.excerpt hc hn.proper, hoperand left (by simp), hoperand right (by simp)⟩
    · simp [Part.groups]
  · contradiction

theorem predicate_from (hc : c.Cuts text good) (hr : r.Sound c text good)
    (hnested : nested.Sound text good) (hn : (Element.node n).Laid text) :
    (Part.predicate (predicate r c nested n)).From good n.span := by
  have hunstructured : (Part.predicate (.unstructured (c.unstructured n))).From good n.span :=
    .only (unstructured_from hc hn) rfl rfl rfl
  unfold predicate
  dsimp only
  split
  · cases h : comparison? r c nested n with
    | none => exact hunstructured
    | some p => exact comparison?_from hc hnested hn h
  split
  · cases h : among? r c nested n with
    | none => exact hunstructured
    | some p => exact among?_from hc hnested hn h
  split
  · cases h : r.atom? n with
    | none => exact hunstructured
    | some m =>
      have hcontains := hr.atom? h
      apply Part.From.intro hc hn.proper rfl
      · simp only [Option.map_eq_map, Option.map_some, Option.getD_some, Part.pieces,
          Predicate.pieces, List.forall_mem_cons, List.not_mem_nil, false_implies, implies_true,
          and_true]
        refine ⟨.excerpt hc hn.proper, ?_⟩
        exact (hr.atom (hn.of_contains hcontains)).within (hn.within hcontains)
      · simp [Part.groups]
  · exact hunstructured

theorem expression_from (hc : c.Cuts text good) (hnested : nested.Sound text good)
    (hn : (Element.node n).Laid text) :
    (Part.expr (expression r c nested n)).From good n.span := by
  unfold expression
  split
  · apply Part.From.intro hc hn.proper rfl
    · simp only [Part.pieces, Expr.pieces, List.forall_mem_cons, List.forall_mem_map]
      refine ⟨.excerpt hc hn.proper, ?_⟩
      intro m hm
      have hcontains := Node.Contains.of_childrenThat hm
      exact (hnested.expression (hn.of_contains hcontains)).within (hn.within hcontains)
    · simp [Part.groups]
  split
  · rename_i inner hinner
    split at hinner
    · have hcontains := Node.Contains.of_firstChild? hinner
      apply Part.From.intro hc hn.proper rfl
      · simp only [Part.pieces, Expr.pieces, List.forall_mem_cons, List.not_mem_nil, false_implies,
          implies_true, and_true]
        refine ⟨.excerpt hc hn.proper, ?_⟩
        exact (hnested.predicate (hn.of_contains hcontains)).within (hn.within hcontains)
      · simp [Part.groups]
    · contradiction
  · exact .only (unstructured_from hc hn) rfl rfl rfl

-- Statements

omit [DecidableEq ρ] [Production ρ] in
theorem values_from (hc : c.Cuts text good) (hnested : nested.Sound text good)
    (hn : (Element.node n).Laid text) {rows : List (Node ρ)} (hrows : ∀ m ∈ rows, n.Contains m) :
    (∀ q ∈ (InsertSource.values
        ⟨c.excerptOf n, rows.map (·.childNodes.map nested.expression)⟩).pieces, q.From good n.span) ∧
      ∀ g ∈ (InsertSource.values
        ⟨c.excerptOf n, rows.map (·.childNodes.map nested.expression)⟩).groups,
        ∀ q ∈ g.2, q.origin.span.Within g.1.span := by
  have hexpr : ∀ x ∈ (rows.map (·.childNodes.map nested.expression)).flatten,
      (Part.expr x).From good n.span := by
    simp only [List.mem_flatten, List.mem_map]
    rintro x ⟨_, ⟨m, hm, rfl⟩, hx⟩
    obtain ⟨k, hk, rfl⟩ := List.mem_map.1 hx
    have hcontains := (hrows m hm).trans (.of_mem hk)
    exact (hnested.expression (hn.of_contains hcontains)).within (hn.within hcontains)
  constructor
  · simp only [InsertSource.pieces, List.forall_mem_cons, List.forall_mem_map]
    exact ⟨.excerpt hc hn.proper, hexpr⟩
  · simp only [InsertSource.groups, List.forall_mem_singleton, List.forall_mem_map]
    intro x hx
    have hspan : (c.excerptOf n).span = n.span := hc.span hn.span
    rw [hspan]
    exact (hexpr x hx).inside

omit [DecidableEq ρ] [Production ρ] in
theorem insert_from (hc : c.Cuts text good) {s : Span} (hs : s.Proper text) {i : Insert}
    (hexcerpt : i.excerpt = c.excerpt s) (htable : (Part.tableName i.table).From good s)
    (hpieces : ∀ q ∈ i.source.pieces, q.From good s)
    (hgroups : ∀ g ∈ i.source.groups, ∀ q ∈ g.2, q.origin.span.Within g.1.span)
    (hduplicate : ∀ a ∈ i.onDuplicate, (Part.assignment a).From good s)
    (hconflict : ∀ b, i.onConflict = some b → (Part.unstructured b).From good s)
    (hreturning : ∀ b, i.returning = some b → (Part.unstructured b).From good s) :
    (Part.insert i).From good s := by
  have horigin : (Part.insert i).origin = c.excerpt s := hexcerpt
  apply Part.From.intro hc hs horigin
  · simp only [Part.pieces, Insert.pieces, List.forall_mem_append, List.forall_mem_cons,
      List.forall_mem_map, forall_mem_optional, List.not_mem_nil, false_implies, implies_true,
      and_true, hexcerpt]
    exact ⟨⟨⟨⟨⟨.excerpt hc hs, htable⟩, hpieces⟩, hduplicate⟩, hconflict⟩, hreturning⟩
  · exact hgroups

omit [DecidableEq ρ] [Production ρ] in
theorem update_from (hc : c.Cuts text good) {s : Span} (hs : s.Proper text) {u : Update}
    (hexcerpt : u.excerpt = c.excerpt s) (htables : (Part.tables u.tables).From good s)
    (hassignments : ∀ a ∈ u.assignments, (Part.assignment a).From good s)
    (hcondition : ∀ x, u.condition = some x → (Part.expr x).From good s)
    (htail : ∀ p ∈ tail u.orderBy u.limit, p.From good s)
    (hreturning : ∀ b, u.returning = some b → (Part.unstructured b).From good s) :
    (Part.update u).From good s := by
  have horigin : (Part.update u).origin = c.excerpt s := hexcerpt
  apply Part.From.intro hc hs horigin
  · simp only [Part.pieces, Update.pieces, List.forall_mem_append, List.forall_mem_cons,
      List.forall_mem_map, forall_mem_optional, List.not_mem_nil, false_implies, implies_true,
      and_true, hexcerpt]
    exact ⟨⟨⟨⟨⟨.excerpt hc hs, htables⟩, hassignments⟩, hcondition⟩, htail⟩, hreturning⟩
  · simp [Part.groups]

omit [DecidableEq ρ] [Production ρ] in
theorem delete_from (hc : c.Cuts text good) {s : Span} (hs : s.Proper text) {d : Delete}
    (hexcerpt : d.excerpt = c.excerpt s) (htables : (Part.tables d.tables).From good s)
    (htargets : ∀ t ∈ d.targets, (Part.tableName t).From good s)
    (hcondition : ∀ x, d.condition = some x → (Part.expr x).From good s)
    (htail : ∀ p ∈ tail d.orderBy d.limit, p.From good s)
    (hreturning : ∀ b, d.returning = some b → (Part.unstructured b).From good s) :
    (Part.delete d).From good s := by
  have horigin : (Part.delete d).origin = c.excerpt s := hexcerpt
  apply Part.From.intro hc hs horigin
  · simp only [Part.pieces, Delete.pieces, List.forall_mem_append, List.forall_mem_cons,
      List.forall_mem_map, forall_mem_optional, List.not_mem_nil, false_implies, implies_true,
      and_true, hexcerpt]
    exact ⟨⟨⟨⟨⟨.excerpt hc hs, htargets⟩, htables⟩, hcondition⟩, htail⟩, hreturning⟩
  · simp [Part.groups]

omit [DecidableEq ρ] [Production ρ] in
theorem getD_from {s : Span} {x? : Option Statement} {x : Statement}
    (h : ∀ y, x? = some y → (Part.statement y).From good s) (hx : (Part.statement x).From good s) :
    (Part.statement (x?.getD x)).From good s := by
  cases x? with
  | none => exact hx
  | some y => exact h y rfl

omit [DecidableEq ρ] [Production ρ] in
theorem statements_apart (hn : (Element.node n).Laid text) {f : Node ρ → Statement}
    (hf : ∀ m ∈ n.childNodes, (Part.statement (f m)).From good m.span) :
    (n.childNodes.map f).Pairwise fun s t => s.excerpt.span.stop ≤ t.excerpt.span.start := by
  have hchildren := List.pairwise_map.1 (hn.nodes rfl (.refl n)).row.pairwise
  have hnodes : n.childNodes.Pairwise fun m k => m.span.stop ≤ k.span.start := by
    apply hchildren.filterMap
    intro e e' hle m hm k hk
    cases e with
    | token t => contradiction
    | node m' =>
      cases e' with
      | token t => contradiction
      | node k' =>
        cases hm
        cases hk
        exact hle
  apply List.pairwise_map.2
  apply hnodes.imp_of_mem
  intro m k hm hk hle
  exact Nat.le_trans (hf m hm).inside.stop (Nat.le_trans hle (hf k hk).inside.start)

omit [Production ρ] in
theorem statements_nested {list : ρ} {f : Node ρ → Statement} (hn : (Element.node n).Laid text)
    (hf : ∀ {m}, (Element.node m).Laid text → (Part.statement (f m)).From good m.span) :
    let statements := ((n.child? list).toList.flatMap (·.childNodes)).map f
    (∀ s ∈ statements, (Part.statement s).Nested good) ∧
      statements.Pairwise fun s t => s.excerpt.span.stop ≤ t.excerpt.span.start := by
  cases hlist : n.child? list with
  | none => simp
  | some m =>
    have hlaid := hn.of_contains (.of_child? hlist)
    simp only [Option.toList_some, List.flatMap_singleton, List.forall_mem_map]
    exact ⟨fun k hk => (hf (hlaid.child hk)).nested,
      statements_apart hlaid fun k hk => hf (hlaid.child hk)⟩

end Reading

namespace Reader

variable [DecidableEq ρ] [Production ρ]

omit [DecidableEq ρ] in
theorem blind_sound (hc : c.Cuts text good) : (blind c : Reader ρ).Sound text good where
  select? _ h := by contradiction
  union? _ h := by contradiction
  group? _ h := by contradiction
  tables hn := .leaf hc hn.proper rfl rfl rfl
  expression hn := .only (Reading.unstructured_from hc hn) rfl rfl rfl
  predicate hn := .only (Reading.unstructured_from hc hn) rfl rfl rfl

theorem attempt_sound (hc : c.Cuts text good) (hr : r.Sound c text good) {nested : Reader ρ}
    (hnested : nested.Sound text good) : (attempt r c nested).Sound text good where
  select? hn := Reading.selectStatement?_from hc hr hnested hn
  union? hn := Reading.unionSelect?_from hc hr hnested hn
  group? hn := Reading.queryGroup?_from hc hr hnested hn
  tables hn := Reading.tableSources_from hc hr hnested hn
  expression hn := Reading.expression_from hc hnested hn
  predicate hn := Reading.predicate_from hc hr hnested hn

theorem ofDepth_sound (hc : c.Cuts text good) (hr : r.Sound c text good) (depth : Nat) :
    (ofDepth r c depth).Sound text good := by
  induction depth with
  | zero => exact blind_sound hc
  | succ depth ih => exact attempt_sound hc hr ih

end Reader

end SqlScript
