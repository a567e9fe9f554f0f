import SqlScript.Proofs.Lineage.Marks
import SqlScript.Proofs.Reading
import SqlScript.Proofs.Tiling

/-!
Readers tell all that there is to tell: they make a part of every production that can be read, and
the marks of the part are those of the production.
-/

namespace SqlScript

open SqlScript.Tree (Node Element)

variable {ρ : Type}

/--
A well formed production of the script, whose tokens are written as their kinds say.
-/
structure Tree.Node.Genuine [Grammar ρ] (c : Context) (text : List Char) (n : Node ρ) : Prop where
  formed : n.Formed
  laid : (Element.node n).Laid text
  spelled : ∀ t ∈ n.leaves, t.Spelled c.source

structure Tree.Node.Ready [Grammar ρ] (c : Context) (text : List Char) (depth : Nat) (n : Node ρ) :
    Prop extends n.Genuine c text where
  height : n.height ≤ depth

namespace Tree.Node

variable [Grammar ρ] {c : Context} {text : List Char} {depth : Nat} {n m : Node ρ}

theorem Genuine.child (h : n.Genuine c text) (hm : m ∈ n.childNodes) : m.Genuine c text where
  formed := h.formed.child hm
  laid := h.laid.child hm
  spelled := fun t ht => h.spelled t (mem_leaves_of_mem_childNodes hm ht)

theorem Genuine.of_contains (h : n.Genuine c text) (hm : n.Contains m) : m.Genuine c text := by
  induction hm with
  | refl => exact h
  | child hk _ ih => exact ih (h.child hk)

namespace Ready

theorem child (h : n.Ready c text (depth + 1)) (hm : m ∈ n.childNodes) : m.Ready c text depth where
  toGenuine := h.toGenuine.child hm
  height := Nat.le_of_lt_succ (Nat.lt_of_lt_of_le (height_lt_of_mem_childNodes hm) h.height)

theorem deeper (h : n.Ready c text depth) : n.Ready c text (depth + 1) :=
  ⟨h.toGenuine, Nat.le_succ_of_le h.height⟩

theorem below (h : n.Ready c text depth) (hm : m ∈ n.childNodes) : m.Ready c text depth where
  toGenuine := h.toGenuine.child hm
  height := Nat.le_trans (Nat.le_of_lt (height_lt_of_mem_childNodes hm)) h.height

theorem of_contains (h : n.Ready c text depth) (hm : n.Contains m) : m.Ready c text depth := by
  induction hm with
  | refl => exact h
  | child hk _ ih => exact ih (h.below hk)

end Ready

section

variable [DecidableEq ρ] {list : ρ}

omit [Grammar ρ] in
theorem contains_of_mem_slots (hm : m ∈ (n.child? list).toList.flatMap (·.childNodes)) :
    n.Contains m := by
  obtain ⟨k, hk, hm⟩ := List.mem_flatMap.1 hm
  exact (Contains.of_child? (Option.mem_toList.1 hk)).trans (.of_mem hm)

theorem Genuine.ready_of_mem_slots (h : n.Genuine c text)
    (hm : m ∈ (n.child? list).toList.flatMap (·.childNodes)) :
    m.Ready c text n.height ∧ m.rule ∈ (Grammar.shape list).rules := by
  obtain ⟨k, hk, hm⟩ := List.mem_flatMap.1 hm
  have hk := Option.mem_toList.1 hk
  have hready : n.Ready c text n.height := ⟨h, Nat.le_refl _⟩
  have hlist := hready.below (mem_childNodes_of_child? hk)
  have hrule := hlist.formed.rule_mem hm
  rw [rule_of_child? hk] at hrule
  exact ⟨hlist.below hm, hrule⟩

end

theorem not_ready_zero (n : Node ρ) : ¬ n.Ready c text 0 := by
  intro hn
  have := hn.height
  cases n
  rw [height] at this
  omega

end Tree.Node

/--
The marks of productions are those of the productions nested in them that the readers look for.
-/
structure Roles.Tells [DecidableEq ρ] [Production ρ] [Grammar ρ] (r : Roles ρ) (L : Lineage ρ)
    (c : Context) (text : List Char) : Prop where
  isSelect {rule : ρ} : r.isSelect rule →
    rule = r.simpleSelect ∨ rule = r.unionSelect ∨ rule = r.parenthesisSelect
  isOperand {rule : ρ} : r.isOperand rule →
    rule = r.specification ∨ rule = r.group ∨ rule = r.unionSelect
  plain {n : Node ρ} : n.rule = r.lock ∨ n.rule = r.groupBy ∨ n.rule = r.orderBy → L.Plain n
  limit {n : Node ρ} : n.rule = r.limitClause →
    (r.limit c n).excerpt = c.excerptOf n ∧ L.marks n = [.limit n.span]
  simpleSelect {n : Node ρ} : n.Genuine c text → n.rule = r.simpleSelect →
    ∃ q, n.child? r.specification = some q ∧ L.marks n = L.marks q ++ L.told (n.child? r.lock)
  parenthesisSelect {n : Node ρ} : n.Genuine c text → n.rule = r.parenthesisSelect →
    ∃ g, n.child? r.group = some g ∧
      L.marks n = L.marks g ++ (L.told (n.child? r.orderBy) ++ L.told (n.child? r.limitClause))
  unionSelect {n : Node ρ} : n.Genuine c text → n.rule = r.unionSelect →
    ∃ first, n.findChild? r.isOperand = some first ∧
      L.marks n = L.marks first ++ (n.childrenOf r.unionPart).flatMap L.marks ++
        (L.told (n.child? r.orderBy) ++ L.told (n.child? r.limitClause))
  unionPart {n : Node ρ} : n.Genuine c text → n.rule = r.unionPart →
    n.tokens ≠ [] ∧ ∃ m, r.partOperand? n = some m ∧ m ∈ n.childNodes ∧ r.isOperand m.rule ∧
      L.marks n = L.marks m
  group {n : Node ρ} : n.Genuine c text → n.rule = r.group →
    ∃ m, n.firstChild? = some m ∧
      (m.rule = r.specification ∨ m.rule = r.unionSelect ∨ m.rule = r.group) ∧
      L.marks n = L.marks m
  specification {n : Node ρ} : n.Genuine c text → n.rule = r.specification →
    ∃ elements, n.child? r.elements = some elements ∧
      (∀ m, r.tables? n = some m → m.rule = r.tableList ∧ ∃ k ∈ n.childNodes, m ∈ k.childNodes) ∧
      (∀ m, r.rowCondition? n = some m → m ∈ n.childNodes) ∧
      L.marks n = L.marks elements ++ L.told (r.tables? n) ++
        L.told (r.rowCondition? n >>= (·.findChild? r.isExpression)) ++
        L.told (n.child? r.groupBy) ++
        L.told (n.child? r.having >>= (·.findChild? r.isExpression)) ++
        (L.told (n.child? r.orderBy) ++ L.told (n.child? r.limitClause))
  elements {n : Node ρ} : n.Genuine c text → n.rule = r.elements →
    ((n.childNodes.filterMap (r.element? c)).flatMap fun e => L.partMarks (.element e)) =
      L.marks n
  tableList {n : Node ρ} : n.Genuine c text → n.rule = r.tableList →
    (∀ m ∈ n.childNodes, m.rule = r.tableSource ∨ L.Plain m) ∧
      L.marks n = n.childNodes.flatMap L.marks
  tableSource {n : Node ρ} : n.Genuine c text → n.rule = r.tableSource →
    ∃ m, n.firstChild? = some m ∧ r.isJoinedItem m.rule ∧
      L.marks n = L.marks m ++ (n.childrenThat r.isJoin).flatMap L.marks
  item {n : Node ρ} : r.isJoinedItem n.rule →
    n.rule = r.namedTable ∨ n.rule = r.subqueryTable ∨ n.rule = r.nestedTables ∨ L.Plain n
  namedTable {n : Node ρ} : n.Genuine c text → n.rule = r.namedTable →
    ∃ t, r.namedTable? c n = some t ∧ L.marks n = [.table t.name.excerpt.span]
  subqueryTable {n : Node ρ} : n.Genuine c text → n.rule = r.subqueryTable →
    ∃ m, n.findChild? r.isSelect = some m ∧ L.marks n = L.marks m
  nestedTables {n : Node ρ} : n.Genuine c text → n.rule = r.nestedTables →
    ∃ m, n.child? r.tableList = some m ∧ L.marks n = L.marks m
  join {n : Node ρ} : n.Genuine c text → r.isJoin n.rule →
    ∃ m kind, n.findChild? r.isJoinedItem = some m ∧ r.joinKind? n = some kind ∧
      (∀ side, kind = .natural side → n.child? r.joinCondition = none) ∧
      L.marks n = L.marks m ++ L.told (n.child? r.joinCondition)
  joinCondition {n : Node ρ} : n.Genuine c text → n.rule = r.joinCondition →
    (n.hasKeyword .ON = false → n.findChild? r.isExpression = none) ∧
      L.marks n = L.told (n.findChild? r.isExpression)
  connective {n : Node ρ} {operator : LogicalOperator} : n.Genuine c text →
    r.connective? c n = some operator →
    L.marks n = (n.childrenThat r.isExpression).flatMap L.marks
  predicateExpression {n : Node ρ} : n.Genuine c text → n.rule = r.predicateExpression →
    ∃ m, n.firstChild? = some m ∧ r.isPredicate m.rule ∧ L.marks n = L.marks m
  expression {n : Node ρ} : n.Genuine c text → r.isExpression n.rule →
    r.connective? c n = none → n.rule = r.predicateExpression ∨ L.Plain n
  comparison {n : Node ρ} : n.Genuine c text → n.rule = r.comparison →
    ∃ a b sign, n.childrenThat r.isPredicate = [a, b] ∧ n.child? r.comparisonOperator = some sign ∧
      L.marks n = L.marks a ++ L.marks b
  among {n : Node ρ} : n.Genuine c text → n.rule = r.among →
    ∃ subject, n.findChild? r.isPredicate = some subject ∧
      ((∃ m, n.findChild? r.isSelect = some m ∧ L.marks n = L.marks subject ++ L.marks m) ∨
        n.findChild? r.isSelect = none ∧ ∃ list, n.child? r.inList = some list ∧
          (∀ m ∈ list.childNodes, r.isExpression m.rule) ∧
          L.marks n = L.marks subject ++ list.childNodes.flatMap L.marks)
  atomPredicate {n : Node ρ} : n.Genuine c text → n.rule = r.atomPredicate →
    ∃ m, r.atom? n = some m ∧ L.partMarks (.atom (r.atom c m)) = L.marks n
  predicate {n : Node ρ} : r.isPredicate n.rule →
    n.rule = r.comparison ∨ n.rule = r.among ∨ n.rule = r.atomPredicate ∨ L.Plain n

structure Reader.Tells [Production ρ] [Grammar ρ] (reader : Reader ρ) (r : Roles ρ) (L : Lineage ρ)
    (c : Context) (text : List Char) (depth : Nat) : Prop where
  select? {n : Node ρ} : n.Ready c text depth → r.isSelect n.rule →
    ∃ s, reader.select? n = some s ∧ L.partMarks (.select s) = L.marks n
  union? {n : Node ρ} : n.Ready c text depth → n.rule = r.unionSelect →
    ∃ s, reader.union? n = some s ∧ L.partMarks (.unionSelect s) = L.marks n
  group? {n : Node ρ} : n.Ready c text depth → n.rule = r.group →
    ∃ g, reader.group? n = some g ∧ L.partMarks (.group g) = L.marks n
  tables {n : Node ρ} : n.Ready c text depth → n.rule = r.tableList →
    L.partMarks (.tables (reader.tables n)) = L.marks n
  expression {n : Node ρ} : n.Ready c text depth → r.isExpression n.rule →
    L.partMarks (.expr (reader.expression n)) = L.marks n
  predicate {n : Node ρ} : n.Ready c text depth → r.isPredicate n.rule →
    L.partMarks (.predicate (reader.predicate n)) = L.marks n

namespace Reading

variable [DecidableEq ρ] [Production ρ] [Grammar ρ] {r : Roles ρ} {L : Lineage ρ} {c : Context}
  {text : List Char} {good : Excerpt → Prop} {nested : Reader ρ} {depth : Nat} {n : Node ρ}

omit [DecidableEq ρ] [Grammar ρ] in
theorem plain_tells (hc : c.Cuts text good) (hn : (Element.node n).Laid text) (h : L.Plain n) :
    L.partMarks (.unstructured (c.unstructured n)) = L.marks n :=
  h.partMarks_unstructured (hc.span hn.span)

omit [Grammar ρ] in
theorem unstructured?_tells (hc : c.Cuts text good) (hn : (Element.node n).Laid text) {rule : ρ}
    (h : ∀ m : Node ρ, m.rule = rule → L.Plain m) :
    ((unstructured? c n rule).toList.flatMap fun b => L.partMarks (.unstructured b)) =
      L.told (n.child? rule) := by
  apply L.flatMap_map_toList
  intro m hm
  exact plain_tells hc (hn.of_contains (.of_child? hm)) (h m (Node.rule_of_child? hm))

theorem limit?_tells (hc : c.Cuts text good) (hr : r.Tells L c text)
    (hn : (Element.node n).Laid text) :
    ((limit? r c n).toList.flatMap fun l => L.partMarks (.limit l)) =
      L.told (n.child? r.limitClause) := by
  apply L.flatMap_map_toList
  intro m hm
  obtain ⟨hexcerpt, hmarks⟩ := hr.limit (Node.rule_of_child? hm)
  rw [L.partMarks_limit, hexcerpt, hmarks]
  exact congrArg (fun s => [Mark.limit s]) (hc.span (hn.of_contains (.of_child? hm)).span)

theorem tail_tells (hc : c.Cuts text good) (hr : r.Tells L c text)
    (hn : (Element.node n).Laid text) :
    (Part.tail (unstructured? c n r.orderBy) (limit? r c n)).flatMap L.partMarks =
      L.told (n.child? r.orderBy) ++ L.told (n.child? r.limitClause) := by
  unfold Part.tail
  rw [List.flatMap_append, L.flatMap_optional, L.flatMap_optional,
    unstructured?_tells hc hn fun m hm => hr.plain (.inr (.inr hm)), limit?_tells hc hr hn]

omit [DecidableEq ρ] in
theorem clause_condition?_tells (hnested : nested.Tells r L c text depth)
    (hn : n.Ready c text (depth + 1)) {clause? : Option (Node ρ)}
    (hclause : ∀ m, clause? = some m → m ∈ n.childNodes) :
    ((clause? >>= condition? r nested).toList.flatMap fun x => L.partMarks (.expr x)) =
      L.told (clause? >>= (·.findChild? r.isExpression)) := by
  cases clause? with
  | none => rfl
  | some clause =>
    apply L.flatMap_map_toList
    intro m hm
    have hchild := (hn.child (hclause clause rfl)).below (Node.mem_childNodes_of_findChild? hm)
    exact hnested.expression hchild (Node.rule_of_findChild? hm)

theorem selectElements_tells (hr : r.Tells L c text) (hn : n.Ready c text depth)
    (hrule : n.rule = r.elements) :
    L.partMarks (.elements (selectElements r c n)) = L.marks n := by
  rw [L.partMarks_pieces rfl, ← hr.elements hn.toGenuine hrule]
  simp [Part.pieces, SelectElements.pieces, selectElements, List.flatMap_map]

theorem specification?_tells (hc : c.Cuts text good) (hr : r.Tells L c text)
    (hnested : nested.Tells r L c text depth) (hn : n.Ready c text (depth + 1))
    (hrule : n.rule = r.specification) :
    ∃ q, specification? r c nested n = some q ∧ L.partMarks (.specification q) = L.marks n := by
  obtain ⟨elements, helements, htables, hcondition, hmarks⟩ := hr.specification hn.toGenuine hrule
  have helements' := selectElements_tells hr (hn.child (Node.mem_childNodes_of_child? helements))
    (Node.rule_of_child? helements)
  have htables' : ((nested.tables <$> r.tables? n).toList.flatMap fun t => L.partMarks (.tables t)) =
      L.told (r.tables? n) := by
    apply L.flatMap_map_toList
    intro m hm
    obtain ⟨hlist, k, hk, hmk⟩ := htables m hm
    exact hnested.tables ((hn.child hk).below hmk) hlist
  unfold specification?
  rw [helements]
  refine ⟨_, rfl, ?_⟩
  rw [L.partMarks_pieces rfl, hmarks]
  simp only [Part.pieces, QuerySpecification.pieces, List.flatMap_append, List.flatMap_cons,
    List.flatMap_nil, L.flatMap_optional, L.partMarks_excerpt, List.nil_append, List.append_nil]
  rw [helements', htables', clause_condition?_tells hnested hn hcondition,
    clause_condition?_tells hnested hn fun _ => Node.mem_childNodes_of_child?,
    unstructured?_tells hc hn.laid fun m hm => hr.plain (.inr (.inl hm)), tail_tells hc hr hn.laid]

theorem operand_tells (hc : c.Cuts text good) (hr : r.Tells L c text)
    (hnested : nested.Tells r L c text depth) (hn : n.Ready c text depth) (hrule : r.isOperand n.rule) :
    L.partMarks (.operand (operand r c nested n)) = L.marks n := by
  unfold operand
  dsimp only
  rw [if_neg (by simp [hrule])]
  split
  · rename_i h
    obtain ⟨q, hq, hmarks⟩ := specification?_tells hc hr hnested hn.deeper h
    rw [hq, ← hmarks]
    exact L.partMarks_only rfl rfl
  split
  · rename_i h
    obtain ⟨g, hg, hmarks⟩ := hnested.group? hn h
    rw [hg, ← hmarks]
    exact L.partMarks_only rfl rfl
  · rename_i hspecification hgroup
    have h := ((hr.isOperand hrule).resolve_left hspecification).resolve_left hgroup
    obtain ⟨s, hs, hmarks⟩ := hnested.union? hn h
    rw [hs, ← hmarks]
    exact L.partMarks_only rfl rfl

theorem unionPart?_tells (hc : c.Cuts text good) (hr : r.Tells L c text)
    (hnested : nested.Tells r L c text depth) (hn : n.Ready c text depth)
    (hrule : n.rule = r.unionPart) :
    ((unionPart? r c nested n).toList.flatMap fun p => p.pieces.flatMap L.partMarks) =
      L.marks n := by
  obtain ⟨htokens, m, hm, hmem, hoperand, hmarks⟩ := hr.unionPart hn.toGenuine hrule
  have htells := operand_tells hc hr hnested (hn.below hmem) hoperand
  unfold unionPart?
  rw [List.head?_eq_some_head htokens, List.getLast?_eq_some_getLast htokens, hm, hmarks]
  simp [UnionPart.pieces, htells]

theorem unionSelect?_tells (hc : c.Cuts text good) (hr : r.Tells L c text)
    (hnested : nested.Tells r L c text depth) (hn : n.Ready c text (depth + 1))
    (hrule : n.rule = r.unionSelect) :
    ∃ s, unionSelect? r c nested n = some s ∧ L.partMarks (.unionSelect s) = L.marks n := by
  obtain ⟨first, hfirst, hmarks⟩ := hr.unionSelect hn.toGenuine hrule
  have hfirst' := operand_tells hc hr hnested
    (hn.child (Node.mem_childNodes_of_findChild? hfirst)) (Node.rule_of_findChild? hfirst)
  have hparts : (((n.childrenOf r.unionPart).filterMap (unionPart? r c nested)).flatMap
        UnionPart.pieces).flatMap L.partMarks = (n.childrenOf r.unionPart).flatMap L.marks := by
    rw [List.flatMap_assoc, List.filterMap_eq_flatMap_toList, List.flatMap_assoc]
    apply List.flatMap_congr
    intro m hm
    exact unionPart?_tells hc hr hnested (hn.child (Node.mem_childNodes_of_mem_childrenOf hm))
      (eq_of_beq (Node.rule_of_mem_childrenThat hm))
  unfold unionSelect?
  rw [hfirst]
  refine ⟨_, rfl, ?_⟩
  rw [L.partMarks_pieces rfl, hmarks]
  simp only [Part.pieces, UnionSelect.pieces, List.flatMap_append, List.flatMap_cons,
    List.flatMap_nil, L.partMarks_excerpt, List.nil_append, List.append_nil]
  rw [hfirst', hparts, tail_tells hc hr hn.laid]

theorem queryGroup?_tells (hc : c.Cuts text good) (hr : r.Tells L c text)
    (hnested : nested.Tells r L c text depth) (hn : n.Ready c text (depth + 1))
    (hrule : n.rule = r.group) :
    ∃ g, queryGroup? r c nested n = some g ∧ L.partMarks (.group g) = L.marks n := by
  obtain ⟨m, hm, hform, hmarks⟩ := hr.group hn.toGenuine hrule
  have hready := hn.child (Node.mem_childNodes_of_firstChild? hm)
  have hbody : ∃ body, queryBody? r c nested m = some body ∧
      body.pieces.flatMap L.partMarks = L.marks m := by
    unfold queryBody?
    split
    · rename_i h
      obtain ⟨q, hq, hmarks⟩ := specification?_tells hc hr hnested hready.deeper h
      exact ⟨.specification q, by rw [hq]; rfl, by simp [QueryBody.pieces, hmarks]⟩
    split
    · rename_i h
      obtain ⟨s, hs, hmarks⟩ := hnested.union? hready h
      exact ⟨.union s, by rw [hs]; rfl, by simp [QueryBody.pieces, hmarks]⟩
    · rename_i hspecification hunion
      have h := (hform.resolve_left hspecification).resolve_left hunion
      rw [if_pos h]
      obtain ⟨g, hg, hmarks⟩ := hnested.group? hready h
      exact ⟨.nested g, by rw [hg]; rfl, by simp [QueryBody.pieces, hmarks]⟩
  obtain ⟨body, hbody, hpieces⟩ := hbody
  have hread : n.firstChild? >>= queryBody? r c nested = some body :=
    Option.bind_eq_some_iff.2 ⟨m, hm, hbody⟩
  unfold queryGroup?
  rw [hread]
  refine ⟨_, rfl, ?_⟩
  rw [L.partMarks_pieces rfl, hmarks, ← hpieces]
  simp [Part.pieces, QueryGroup.pieces]

theorem simpleSelect?_tells (hc : c.Cuts text good) (hr : r.Tells L c text)
    (hnested : nested.Tells r L c text depth) (hn : n.Ready c text (depth + 1))
    (hrule : n.rule = r.simpleSelect) :
    ∃ s, simpleSelect? r c nested n = some s ∧ L.partMarks (.simpleSelect s) = L.marks n := by
  obtain ⟨m, hm, hmarks⟩ := hr.simpleSelect hn.toGenuine hrule
  obtain ⟨q, hq, hquery⟩ := specification?_tells hc hr hnested
    (hn.child (Node.mem_childNodes_of_child? hm)).deeper (Node.rule_of_child? hm)
  have hread : n.child? r.specification >>= specification? r c nested = some q :=
    Option.bind_eq_some_iff.2 ⟨m, hm, hq⟩
  unfold simpleSelect?
  rw [hread]
  refine ⟨_, rfl, ?_⟩
  rw [L.partMarks_pieces rfl, hmarks, ← hquery]
  simp only [Part.pieces, SimpleSelect.pieces, List.flatMap_append, List.flatMap_cons,
    List.flatMap_nil, L.partMarks_excerpt, L.flatMap_optional, List.nil_append, List.append_nil]
  rw [unstructured?_tells hc hn.laid fun m hm => hr.plain (.inl hm)]

theorem parenthesisSelect?_tells (hc : c.Cuts text good) (hr : r.Tells L c text)
    (hnested : nested.Tells r L c text depth) (hn : n.Ready c text (depth + 1))
    (hrule : n.rule = r.parenthesisSelect) :
    ∃ s, parenthesisSelect? r c nested n = some s ∧
      L.partMarks (.parenthesisSelect s) = L.marks n := by
  obtain ⟨m, hm, hmarks⟩ := hr.parenthesisSelect hn.toGenuine hrule
  obtain ⟨g, hg, hgroup⟩ := hnested.group? (hn.child (Node.mem_childNodes_of_child? hm))
    (Node.rule_of_child? hm)
  have hread : n.child? r.group >>= nested.group? = some g :=
    Option.bind_eq_some_iff.2 ⟨m, hm, hg⟩
  unfold parenthesisSelect?
  rw [hread]
  refine ⟨_, rfl, ?_⟩
  rw [L.partMarks_pieces rfl, hmarks, ← hgroup]
  simp only [Part.pieces, ParenthesisSelect.pieces, List.flatMap_append, List.flatMap_cons,
    List.flatMap_nil, L.partMarks_excerpt, List.nil_append, List.append_nil]
  rw [tail_tells hc hr hn.laid]

theorem selectStatement?_tells (hc : c.Cuts text good) (hr : r.Tells L c text)
    (hnested : nested.Tells r L c text depth) (hn : n.Ready c text (depth + 1))
    (hrule : r.isSelect n.rule) :
    ∃ s, selectStatement? r c nested n = some s ∧ L.partMarks (.select s) = L.marks n := by
  unfold selectStatement?
  split
  · rename_i h
    obtain ⟨s, hs, hmarks⟩ := simpleSelect?_tells hc hr hnested hn h
    exact ⟨.simple s, by rw [hs]; rfl, (L.partMarks_only rfl rfl).trans hmarks⟩
  split
  · rename_i h
    obtain ⟨s, hs, hmarks⟩ := unionSelect?_tells hc hr hnested hn h
    exact ⟨.union s, by rw [hs]; rfl, (L.partMarks_only rfl rfl).trans hmarks⟩
  · rename_i hsimple hunion
    have h := ((hr.isSelect hrule).resolve_left hsimple).resolve_left hunion
    rw [if_pos h]
    obtain ⟨s, hs, hmarks⟩ := parenthesisSelect?_tells hc hr hnested hn h
    exact ⟨.parenthesis s, by rw [hs]; rfl, (L.partMarks_only rfl rfl).trans hmarks⟩

-- Tables

theorem subqueryTable?_tells (hr : r.Tells L c text) (hnested : nested.Tells r L c text depth)
    (hn : n.Ready c text (depth + 1)) (hrule : n.rule = r.subqueryTable) :
    ∃ t, subqueryTable? r c nested n = some t ∧ L.partMarks (.item (.subquery t)) = L.marks n := by
  obtain ⟨m, hm, hmarks⟩ := hr.subqueryTable hn.toGenuine hrule
  obtain ⟨s, hs, hselect⟩ := hnested.select? (hn.child (Node.mem_childNodes_of_findChild? hm))
    (Node.rule_of_findChild? hm)
  have hread : n.findChild? r.isSelect >>= nested.select? = some s :=
    Option.bind_eq_some_iff.2 ⟨m, hm, hs⟩
  unfold subqueryTable?
  rw [hread]
  refine ⟨_, rfl, ?_⟩
  rw [L.partMarks_pieces rfl, hmarks, ← hselect]
  simp [Part.pieces, TableItem.pieces]

theorem tableItem_tells (hc : c.Cuts text good) (hr : r.Tells L c text)
    (hnested : nested.Tells r L c text depth) (hn : n.Ready c text (depth + 1))
    (hrule : r.isJoinedItem n.rule) :
    L.partMarks (.item (tableItem r c nested n)) = L.marks n := by
  unfold tableItem
  dsimp only
  split
  · rename_i h
    obtain ⟨t, ht, hmarks⟩ := hr.namedTable hn.toGenuine h
    rw [ht, hmarks]
    change L.partMarks (.item (.named t)) = _
    rw [L.partMarks_pieces rfl]
    simp [Part.pieces, TableItem.pieces]
  split
  · rename_i h
    obtain ⟨t, ht, hmarks⟩ := subqueryTable?_tells hr hnested hn h
    rw [ht, ← hmarks]
    rfl
  split
  · rename_i h
    obtain ⟨m, hm, hmarks⟩ := hr.nestedTables hn.toGenuine h
    rw [hm, hmarks, ← hnested.tables (hn.child (Node.mem_childNodes_of_child? hm))
      (Node.rule_of_child? hm)]
    exact L.partMarks_only rfl rfl
  · rename_i hnamed hsubquery htables
    have h := (((hr.item hrule).resolve_left hnamed).resolve_left hsubquery).resolve_left htables
    rw [← plain_tells hc hn.laid h]
    exact L.partMarks_only rfl rfl

theorem joinCondition?_tells (hr : r.Tells L c text) (hnested : nested.Tells r L c text depth)
    (hn : n.Ready c text depth) (hrule : n.rule = r.joinCondition) :
    ((joinCondition? r c nested n).toList.flatMap fun j => L.partMarks (.joinCondition j)) =
      L.marks n := by
  obtain ⟨hsharing, hmarks⟩ := hr.joinCondition hn.toGenuine hrule
  unfold joinCondition?
  rw [hmarks]
  split
  · unfold condition?
    cases hx : n.findChild? r.isExpression with
    | none => rfl
    | some x =>
      have hx := hnested.expression (hn.below (Node.mem_childNodes_of_findChild? hx))
        (Node.rule_of_findChild? hx)
      rw [L.told_some, ← hx]
      change L.partMarks (.joinCondition (.on (c.excerptOf n) (nested.expression x))) ++ [] = _
      rw [L.partMarks_pieces rfl]
      simp [Part.pieces, JoinCondition.pieces]
  · rename_i hon
    rw [hsharing (by simpa using hon)]
    cases n.child? r.nameList with
    | none => rfl
    | some list =>
      change L.partMarks (.joinCondition (.sharing (c.excerptOf n) (names r c list))) ++ [] = _
      rw [L.partMarks_pieces rfl]
      simp [Part.pieces, JoinCondition.pieces]

theorem join?_tells (hc : c.Cuts text good) (hr : r.Tells L c text)
    (hnested : nested.Tells r L c text depth) (hn : n.Ready c text (depth + 1))
    (hrule : r.isJoin n.rule) :
    ∃ j, join? r c nested n = some j ∧ L.partMarks (.join j) = L.marks n := by
  obtain ⟨m, kind, hm, hkind, hnatural, hmarks⟩ := hr.join hn.toGenuine hrule
  have hitem := tableItem_tells hc hr hnested
    (hn.child (Node.mem_childNodes_of_findChild? hm)).deeper (Node.rule_of_findChild? hm)
  have hcondition : ((n.child? r.joinCondition >>= joinCondition? r c nested).toList.flatMap
      fun j => L.partMarks (.joinCondition j)) = L.told (n.child? r.joinCondition) := by
    cases h : n.child? r.joinCondition with
    | none => rfl
    | some k =>
      rw [L.told_some]
      exact joinCondition?_tells hr hnested (hn.child (Node.mem_childNodes_of_child? h))
        (Node.rule_of_child? h)
  unfold join?
  rw [hm, hkind]
  refine ⟨_, rfl, ?_⟩
  rw [L.partMarks_pieces rfl, hmarks]
  -- A natural join has no condition.
  cases kind with
  | natural side =>
    rw [hnatural side rfl]
    simp [Part.pieces, Join.pieces, Join.item, Join.condition, JoinKind.join, hitem]
  | _ =>
    rw [← hcondition]
    simp [Part.pieces, Join.pieces, Join.item, Join.condition, JoinKind.join, hitem]

theorem tableSource_tells (hc : c.Cuts text good) (hr : r.Tells L c text)
    (hnested : nested.Tells r L c text depth) (hn : n.Ready c text (depth + 1))
    (hrule : n.rule = r.tableSource ∨ L.Plain n) :
    L.partMarks (.source (tableSource r c nested n)) = L.marks n := by
  unfold tableSource
  by_cases h : n.rule = r.tableSource
  · obtain ⟨m, hm, hitem, hmarks⟩ := hr.tableSource hn.toGenuine h
    have hitem := tableItem_tells hc hr hnested
      (hn.child (Node.mem_childNodes_of_firstChild? hm)).deeper hitem
    have hjoins : ((n.childrenThat r.isJoin).filterMap (join? r c nested)).flatMap
        (fun j => L.partMarks (.join j)) = (n.childrenThat r.isJoin).flatMap L.marks := by
      rw [List.filterMap_eq_flatMap_toList, List.flatMap_assoc]
      apply List.flatMap_congr
      intro k hk
      obtain ⟨j, hj, hmarks⟩ := join?_tells hc hr hnested
        (hn.child (Node.mem_childNodes_of_mem_childrenThat hk)).deeper
        (Node.rule_of_mem_childrenThat hk)
      rw [hj, ← hmarks]
      simp
    rw [if_pos h]
    unfold joinedTable?
    rw [hm, hmarks, ← hitem, ← hjoins]
    change L.partMarks (.source (.base _)) = _
    rw [L.partMarks_pieces rfl]
    simp [Part.pieces, TableSource.pieces, List.flatMap_map]
  · rw [if_neg h, ← plain_tells hc hn.laid (hrule.resolve_left h)]
    exact L.partMarks_only rfl rfl

theorem tableSources_tells (hc : c.Cuts text good) (hr : r.Tells L c text)
    (hnested : nested.Tells r L c text depth) (hn : n.Ready c text (depth + 1))
    (hrule : n.rule = r.tableList) :
    L.partMarks (.tables (tableSources r c nested n)) = L.marks n := by
  obtain ⟨hsources, hmarks⟩ := hr.tableList hn.toGenuine hrule
  rw [L.partMarks_pieces rfl, hmarks]
  simp only [Part.pieces, TableSources.pieces, tableSources, List.flatMap_cons, List.flatMap_map,
    L.partMarks_excerpt, List.nil_append]
  apply List.flatMap_congr
  intro m hm
  exact tableSource_tells hc hr hnested (hn.child hm).deeper (hsources m hm)

-- Expressions

theorem among?_tells (hr : r.Tells L c text) (hnested : nested.Tells r L c text depth)
    (hn : n.Ready c text (depth + 1)) (hrule : n.rule = r.among) :
    ∃ p, among? r c nested n = some p ∧ L.partMarks (.predicate p) = L.marks n := by
  obtain ⟨subject, hsubject, hsource⟩ := hr.among hn.toGenuine hrule
  have hsubject' := hnested.predicate (hn.child (Node.mem_childNodes_of_findChild? hsubject))
    (Node.rule_of_findChild? hsubject)
  have hsource : ∃ source, inSource? r nested n = some source ∧
      L.marks n = L.marks subject ++ source.pieces.flatMap L.partMarks := by
    unfold inSource?
    obtain ⟨m, hm, hmarks⟩ | ⟨hnone, list, hlist, hitems, hmarks⟩ := hsource
    · obtain ⟨s, hs, hselect⟩ := hnested.select? (hn.child (Node.mem_childNodes_of_findChild? hm))
        (Node.rule_of_findChild? hm)
      rw [hm]
      refine ⟨.select s, by dsimp only; rw [hs]; rfl, ?_⟩
      simp [InSource.pieces, hselect, hmarks]
    · rw [hnone, hlist]
      refine ⟨.list (list.childNodes.map nested.expression), rfl, ?_⟩
      rw [hmarks, InSource.pieces, List.flatMap_map, List.flatMap_map]
      congr 1
      apply List.flatMap_congr
      intro m hm
      exact (hnested.expression ((hn.child (Node.mem_childNodes_of_child? hlist)).below hm)
        (hitems m hm)).symm
  obtain ⟨source, hsource, hmarks⟩ := hsource
  unfold among?
  rw [hsubject, hsource]
  refine ⟨_, rfl, ?_⟩
  rw [L.partMarks_pieces rfl, hmarks, ← hsubject']
  simp [Part.pieces, Predicate.pieces]

theorem comparison?_tells (hr : r.Tells L c text) (hnested : nested.Tells r L c text depth)
    (hn : n.Ready c text (depth + 1)) (hrule : n.rule = r.comparison) :
    ∃ p, comparison? r c nested n = some p ∧ L.partMarks (.predicate p) = L.marks n := by
  obtain ⟨a, b, sign, hchildren, hsign, hmarks⟩ := hr.comparison hn.toGenuine hrule
  have hoperand : ∀ m ∈ n.childrenThat r.isPredicate,
      L.partMarks (.predicate (nested.predicate m)) = L.marks m :=
    fun m hm => hnested.predicate (hn.child (Node.mem_childNodes_of_mem_childrenThat hm))
      (Node.rule_of_mem_childrenThat hm)
  rw [hchildren] at hoperand
  unfold comparison?
  rw [hchildren, hsign]
  refine ⟨_, rfl, ?_⟩
  rw [L.partMarks_pieces rfl, hmarks, ← hoperand a (by simp), ← hoperand b (by simp)]
  simp [Part.pieces, Predicate.pieces]

theorem predicate_tells (hc : c.Cuts text good) (hr : r.Tells L c text)
    (hnested : nested.Tells r L c text depth) (hn : n.Ready c text (depth + 1))
    (hrule : r.isPredicate n.rule) :
    L.partMarks (.predicate (predicate r c nested n)) = L.marks n := by
  unfold predicate
  dsimp only
  split
  · rename_i h
    obtain ⟨p, hp, hmarks⟩ := comparison?_tells hr hnested hn h
    rw [hp, ← hmarks]
    rfl
  split
  · rename_i h
    obtain ⟨p, hp, hmarks⟩ := among?_tells hr hnested hn h
    rw [hp, ← hmarks]
    rfl
  split
  · rename_i h
    obtain ⟨m, hm, hmarks⟩ := hr.atomPredicate hn.toGenuine h
    rw [hm, ← hmarks]
    change L.partMarks (.predicate (.atom _ _)) = _
    rw [L.partMarks_pieces rfl]
    simp [Part.pieces, Predicate.pieces]
  · rename_i hcomparison hamong hatom
    have h := (((hr.predicate hrule).resolve_left hcomparison).resolve_left hamong).resolve_left
      hatom
    rw [← plain_tells hc hn.laid h]
    exact L.partMarks_only rfl rfl

theorem expression_tells (hc : c.Cuts text good) (hr : r.Tells L c text)
    (hnested : nested.Tells r L c text depth) (hn : n.Ready c text (depth + 1))
    (hrule : r.isExpression n.rule) :
    L.partMarks (.expr (expression r c nested n)) = L.marks n := by
  unfold expression
  cases hoperator : r.connective? c n with
  | some operator =>
    dsimp only
    rw [L.partMarks_pieces rfl, hr.connective hn.toGenuine hoperator]
    simp only [Part.pieces, Expr.pieces, List.flatMap_cons, List.flatMap_map, L.partMarks_excerpt,
      List.nil_append]
    apply List.flatMap_congr
    intro m hm
    exact hnested.expression (hn.child (Node.mem_childNodes_of_mem_childrenThat hm))
      (Node.rule_of_mem_childrenThat hm)
  | none =>
    by_cases h : n.rule = r.predicateExpression
    · obtain ⟨m, hm, hpredicate, hmarks⟩ := hr.predicateExpression hn.toGenuine h
      rw [if_pos h, hm, hmarks, ← hnested.predicate (hn.child
        (Node.mem_childNodes_of_firstChild? hm)) hpredicate]
      dsimp only
      rw [L.partMarks_pieces rfl]
      simp [Part.pieces, Expr.pieces]
    · have hplain := (hr.expression hn.toGenuine hrule hoperator).resolve_left h
      rw [if_neg h, ← plain_tells hc hn.laid hplain]
      exact L.partMarks_only rfl rfl

end Reading

namespace Reader

variable [DecidableEq ρ] [Production ρ] [Grammar ρ] {r : Roles ρ} {L : Lineage ρ} {c : Context}
  {text : List Char} {good : Excerpt → Prop}

theorem attempt_tells (hc : c.Cuts text good) (hr : r.Tells L c text) {nested : Reader ρ}
    {depth : Nat} (hnested : nested.Tells r L c text depth) :
    (attempt r c nested).Tells r L c text (depth + 1) where
  select? hn := Reading.selectStatement?_tells hc hr hnested hn
  union? hn := Reading.unionSelect?_tells hc hr hnested hn
  group? hn := Reading.queryGroup?_tells hc hr hnested hn
  tables hn := Reading.tableSources_tells hc hr hnested hn
  expression hn := Reading.expression_tells hc hr hnested hn
  predicate hn := Reading.predicate_tells hc hr hnested hn

theorem ofDepth_tells (hc : c.Cuts text good) (hr : r.Tells L c text) (depth : Nat) :
    (ofDepth r c depth).Tells r L c text depth := by
  induction depth with
  | zero =>
    constructor
    all_goals
      intro n hn
      exact absurd hn n.not_ready_zero
  | succ depth ih => exact attempt_tells hc hr ih

end Reader

end SqlScript
