import SqlScript.Proofs.Mirror.Basic

/-!
Readers show what is in the tree: what they read of a production is its image.
-/

namespace SqlScript

open SqlScript.Tree (Node Element)

variable {ρ : Type}

section

variable {α β γ : Type} {l : List α} {f : α → Option β} {P : β → Prop} {R : β → α → Prop}

theorem forall₂_filterMap (hl : ∀ a ∈ l, ∃ b, f a = some b ∧ R b a) :
    List.Forall₂ R (l.filterMap f) l := by
  induction l with
  | nil => exact .nil
  | cons a l ih =>
    obtain ⟨b, hb, hR⟩ := hl a List.mem_cons_self
    rw [List.filterMap_cons_some hb]
    exact .cons hR (ih fun k hk => hl k (List.mem_cons_of_mem _ hk))

theorem forall₂_map {f : α → β} (hl : ∀ a ∈ l, R (f a) a) : List.Forall₂ R (l.map f) l :=
  List.forall₂_map_left_iff.2 (List.forall₂_same.2 hl)

theorem forall₂_flatMap {f : α → List β} {g : α → List γ} {R : β → γ → Prop}
    (hl : ∀ a ∈ l, List.Forall₂ R (f a) (g a)) : List.Forall₂ R (l.flatMap f) (l.flatMap g) := by
  have hsame : List.Forall₂ (fun a a' => a = a' ∧ a ∈ l) l l :=
    List.forall₂_same.2 fun a ha => ⟨rfl, ha⟩
  refine List.rel_flatMap hsame ?_
  rintro a _ ⟨rfl, ha⟩
  exact hl a ha

theorem rel_map {a? : Option α} {f : α → β} (h : ∀ a, a? = some a → R (f a) a) :
    Option.Rel R (a?.map f) a? := by
  cases a? with
  | none => exact .none
  | some a => exact .some (h a rfl)

theorem rel_bind {a? : Option α} {f : α → Option β}
    (h : ∀ a, a? = some a → ∃ b, f a = some b ∧ R b a) : Option.Rel R (a? >>= f) a? := by
  cases a? with
  | none => exact .none
  | some a =>
    obtain ⟨b, hb, hR⟩ := h a rfl
    rw [Option.bind_eq_bind, Option.bind_some, hb]
    exact .some hR

end

/--
What the productions of a grammar are made of, and which of them may be kept as text, is as a mirror
asks for.
-/
structure Mirror.Fits [DecidableEq ρ] [Production ρ] [Grammar ρ] (M : Mirror ρ) (text : List Char) :
    Prop where
  tail {n : Node ρ} : n.rule = M.roles.lock ∨ n.rule = M.roles.groupBy ∨ n.rule = M.roles.orderBy →
    M.kept n
  element {n m : Node ρ} : n.Genuine M.context text → n.rule = M.roles.elements →
    m ∈ n.childNodes → ∃ e, M.roles.element? M.context m = some e ∧ M.Image (.element e) m
  listed {n m : Node ρ} : n.Formed → n.rule = M.roles.tableList → m ∈ n.childNodes →
    m.rule = M.roles.tableSource ∨ M.kept m
  item {n : Node ρ} : M.roles.isJoinedItem n.rule → n.rule = M.roles.namedTable ∨
    n.rule = M.roles.subqueryTable ∨ n.rule = M.roles.nestedTables ∨ M.kept n
  joinCondition {n : Node ρ} : n.Formed → n.rule = M.roles.joinCondition →
    (n.hasKeyword .ON = true ∧
      ∃ m, n.findChild? M.roles.isExpression = some m ∧ n.Follows .ON m) ∨
    n.hasKeyword .ON = false ∧ ∃ m, n.child? M.roles.nameList = some m
  names {n m : Node ρ} : n.Formed → n.rule = M.roles.nameList → m ∈ n.childNodes →
    m.rule = M.roles.name
  filter {n clause m : Node ρ} : n.Formed → n.rule = M.roles.specification →
    M.roles.rowCondition? n = some clause → clause.findChild? M.roles.isExpression = some m →
    clause.Follows .WHERE m
  having {n m : Node ρ} : n.Formed → n.rule = M.roles.having →
    n.findChild? M.roles.isExpression = some m → n.Follows .HAVING m
  expression {n : Node ρ} : n.Genuine M.context text → M.roles.isExpression n.rule →
    M.roles.connective? M.context n = none → n.rule = M.roles.predicateExpression ∨ M.kept n
  predicate {n : Node ρ} : M.roles.isPredicate n.rule → n.rule = M.roles.comparison ∨
    n.rule = M.roles.among ∨ n.rule = M.roles.atomPredicate ∨ M.kept n
  atom {n m : Node ρ} : n.Genuine M.context text → n.rule = M.roles.atomPredicate →
    M.roles.atom? n = some m → M.Image (.atom (M.roles.atom M.context m)) m

/--
What the readers read are images of the productions that they read, up to a height.
-/
structure Reader.Images [DecidableEq ρ] [Production ρ] [Grammar ρ] (reader : Reader ρ)
    (M : Mirror ρ) (text : List Char) (depth : Nat) : Prop where
  select? {n : Node ρ} : n.Ready M.context text depth → M.roles.isSelect n.rule →
    ∃ s, reader.select? n = some s ∧ M.Image (.select s) n
  union? {n : Node ρ} : n.Ready M.context text depth → n.rule = M.roles.unionSelect →
    ∃ s, reader.union? n = some s ∧ M.Image (.unionSelect s) n
  group? {n : Node ρ} : n.Ready M.context text depth → n.rule = M.roles.group →
    ∃ g, reader.group? n = some g ∧ M.Image (.group g) n
  tables {n : Node ρ} : n.Ready M.context text depth → n.rule = M.roles.tableList →
    M.Image (.tables (reader.tables n)) n
  expression {n : Node ρ} : n.Ready M.context text depth → M.roles.isExpression n.rule →
    M.Image (.expr (reader.expression n)) n
  predicate {n : Node ρ} : n.Ready M.context text depth → M.roles.isPredicate n.rule →
    M.Image (.predicate (reader.predicate n)) n

namespace Reading

open Mirror

variable [DecidableEq ρ] [Production ρ] [Grammar ρ] {M : Mirror ρ} {L : Lineage ρ}
  {text : List Char} {nested : Reader ρ} {depth : Nat} {n : Node ρ}

omit [Grammar ρ] in
theorem unstructured?_image {rule : ρ} (hkept : ∀ m : Node ρ, m.rule = rule → M.kept m) :
    Option.Rel M.Keeps (unstructured? M.context n rule) (n.child? rule) :=
  rel_map fun m hm => ⟨rfl, hkept m (Node.rule_of_child? hm)⟩

theorem ends_image (hM : M.Fits text) :
    M.Ends (unstructured? M.context n M.roles.orderBy) (limit? M.roles M.context n) n where
  orderBy := unstructured?_image fun _ hm => hM.tail (.inr (.inr hm))
  limit := rfl

theorem condition?_image (word : Keyword) (clause? : Option (Node ρ))
    (hnested : nested.Images M text depth)
    (hclause : ∀ k, clause? = some k → k.Ready M.context text depth)
    (hfollows : ∀ k m, clause? = some k → k.findChild? M.roles.isExpression = some m →
      k.Follows word m) :
    M.ImageCondition word clause? (clause? >>= condition? M.roles nested) := by
  refine ⟨clause? >>= (·.findChild? M.roles.isExpression), ?_⟩
  cases clause? with
  | none => exact ⟨by simp [Asks], .none⟩
  | some clause =>
    rw [Option.bind_eq_bind, Option.bind_some, Option.bind_eq_bind, Option.bind_some]
    refine ⟨?_, rel_map fun m hm => hnested.expression
      ((hclause clause rfl).below (Node.mem_childNodes_of_findChild? hm))
      (Node.rule_of_findChild? hm)⟩
    cases hm : clause.findChild? M.roles.isExpression with
    | none =>
      rintro _ m ⟨⟩ hfollows
      simpa using List.find?_eq_none.1 hm m hfollows.mem_childNodes
    | some m => exact ⟨clause, rfl, hfollows clause m rfl hm, Node.rule_of_findChild? hm⟩

-- Selects

theorem selectElements_image (hM : M.Fits text) (hn : n.Genuine M.context text)
    (hrule : n.rule = M.roles.elements) :
    M.Image (.elements (selectElements M.roles M.context n)) n :=
  .elements hrule rfl rfl (forall₂_filterMap fun _ hm => hM.element hn hrule hm)

theorem specification?_image (hM : M.Fits text) (hr : M.roles.Tells L M.context text)
    (hnested : nested.Images M text depth) (hn : n.Ready M.context text (depth + 1))
    (hrule : n.rule = M.roles.specification) :
    ∃ q, specification? M.roles M.context nested n = some q ∧ M.Image (.specification q) n := by
  obtain ⟨elements, helements, htables, hclause, -⟩ := hr.specification hn.toGenuine hrule
  have himage := selectElements_image hM
    (hn.toGenuine.child (Node.mem_childNodes_of_child? helements)) (Node.rule_of_child? helements)
  have htables' : Option.Rel (fun ts k => M.Image (.tables ts) k)
      (nested.tables <$> M.roles.tables? n) (M.roles.tables? n) := by
    refine rel_map fun m hm => ?_
    obtain ⟨hlist, k, hk, hmk⟩ := htables m hm
    exact hnested.tables ((hn.child hk).below hmk) hlist
  obtain ⟨_, hfilter, hcondition⟩ := condition?_image .WHERE (M.roles.rowCondition? n) hnested
    (fun k hk => hn.child (hclause k hk)) fun k m hk => hM.filter hn.formed hrule hk
  obtain ⟨_, hgroups, hhaving⟩ := condition?_image .HAVING (n.child? M.roles.having) hnested
    (fun k hk => hn.child (Node.mem_childNodes_of_child? hk)) fun k m hk =>
      hM.having (hn.formed.child (Node.mem_childNodes_of_child? hk)) (Node.rule_of_child? hk)
  unfold specification?
  rw [helements]
  exact ⟨_, rfl, .specification hrule rfl rfl helements himage htables' hfilter hcondition
    (unstructured?_image fun _ hm => hM.tail (.inr (.inl hm))) hgroups hhaving (ends_image hM)⟩

theorem operand_image (hM : M.Fits text) (hr : M.roles.Tells L M.context text)
    (hnested : nested.Images M text depth) (hn : n.Ready M.context text depth)
    (hrule : M.roles.isOperand n.rule) :
    M.Image (.operand (operand M.roles M.context nested n)) n := by
  unfold operand
  dsimp only
  rw [if_neg (by simp [hrule])]
  split
  · rename_i h
    obtain ⟨q, hq, himage⟩ := specification?_image hM hr hnested hn.deeper h
    rw [hq]
    exact .operandSpecification himage
  split
  · rename_i h
    obtain ⟨g, hg, himage⟩ := hnested.group? hn h
    rw [hg]
    exact .operandGroup himage
  · rename_i hspecification hgroup
    have h := ((hr.isOperand hrule).resolve_left hspecification).resolve_left hgroup
    obtain ⟨s, hs, himage⟩ := hnested.union? hn h
    rw [hs]
    exact .operandUnion himage

theorem unionPart?_image (hM : M.Fits text) (hr : M.roles.Tells L M.context text)
    (hnested : nested.Images M text depth) (hn : n.Ready M.context text depth)
    (hrule : n.rule = M.roles.unionPart) :
    ∃ p, unionPart? M.roles M.context nested n = some p ∧ M.PartImage p n := by
  obtain ⟨htokens, m, hm, hmem, hoperand, -⟩ := hr.unionPart hn.toGenuine hrule
  have himage := operand_image hM hr hnested (hn.below hmem) hoperand
  have hfirst := List.head?_eq_some_head htokens
  have hlast := List.getLast?_eq_some_getLast htokens
  unfold unionPart?
  rw [hfirst, hlast, hm]
  exact ⟨_, rfl, .mk hrule rfl hfirst hlast rfl hm himage⟩

theorem unionSelect?_image (hM : M.Fits text) (hr : M.roles.Tells L M.context text)
    (hnested : nested.Images M text depth) (hn : n.Ready M.context text (depth + 1))
    (hrule : n.rule = M.roles.unionSelect) :
    ∃ s, unionSelect? M.roles M.context nested n = some s ∧ M.Image (.unionSelect s) n := by
  obtain ⟨first, hfirst, -⟩ := hr.unionSelect hn.toGenuine hrule
  have himage := operand_image hM hr hnested
    (hn.child (Node.mem_childNodes_of_findChild? hfirst)) (Node.rule_of_findChild? hfirst)
  have hparts : List.Forall₂ (fun p k => M.PartImage p k)
      ((n.childrenOf M.roles.unionPart).filterMap (unionPart? M.roles M.context nested))
      (n.childrenOf M.roles.unionPart) :=
    forall₂_filterMap fun m hm => unionPart?_image hM hr hnested
      (hn.child (Node.mem_childNodes_of_mem_childrenOf hm))
      (eq_of_beq (Node.rule_of_mem_childrenThat hm))
  unfold unionSelect?
  rw [hfirst]
  exact ⟨_, rfl, .unionSelect hrule rfl hfirst himage hparts (ends_image hM)⟩

theorem queryGroup?_image (hM : M.Fits text) (hr : M.roles.Tells L M.context text)
    (hnested : nested.Images M text depth) (hn : n.Ready M.context text (depth + 1))
    (hrule : n.rule = M.roles.group) :
    ∃ g, queryGroup? M.roles M.context nested n = some g ∧ M.Image (.group g) n := by
  obtain ⟨m, hm, hform, -⟩ := hr.group hn.toGenuine hrule
  have hready := hn.child (Node.mem_childNodes_of_firstChild? hm)
  unfold queryGroup?
  simp only [hm, Option.bind_eq_bind, Option.bind_some]
  unfold queryBody?
  split
  · rename_i h
    obtain ⟨q, hq, himage⟩ := specification?_image hM hr hnested hready.deeper h
    rw [hq]
    exact ⟨_, rfl, .groupSpecification hrule rfl hm himage⟩
  split
  · rename_i h
    obtain ⟨s, hs, himage⟩ := hnested.union? hready h
    rw [hs]
    exact ⟨_, rfl, .groupUnion hrule rfl hm himage⟩
  · rename_i hspecification hunion
    have h := (hform.resolve_left hspecification).resolve_left hunion
    obtain ⟨g, hg, himage⟩ := hnested.group? hready h
    rw [if_pos h, hg]
    exact ⟨_, rfl, .groupNested hrule rfl hm himage⟩

theorem simpleSelect?_image (hM : M.Fits text) (hr : M.roles.Tells L M.context text)
    (hnested : nested.Images M text depth) (hn : n.Ready M.context text (depth + 1))
    (hrule : n.rule = M.roles.simpleSelect) :
    ∃ s, simpleSelect? M.roles M.context nested n = some s ∧ M.Image (.simpleSelect s) n := by
  obtain ⟨m, hm, -⟩ := hr.simpleSelect hn.toGenuine hrule
  obtain ⟨q, hq, himage⟩ := specification?_image hM hr hnested
    (hn.child (Node.mem_childNodes_of_child? hm)).deeper (Node.rule_of_child? hm)
  unfold simpleSelect?
  simp only [hm, Option.bind_eq_bind, Option.bind_some, hq]
  exact ⟨_, rfl, .simpleSelect hrule rfl hm himage
    (unstructured?_image fun _ hm => hM.tail (.inl hm))⟩

theorem parenthesisSelect?_image (hM : M.Fits text) (hr : M.roles.Tells L M.context text)
    (hnested : nested.Images M text depth) (hn : n.Ready M.context text (depth + 1))
    (hrule : n.rule = M.roles.parenthesisSelect) :
    ∃ s, parenthesisSelect? M.roles M.context nested n = some s ∧
      M.Image (.parenthesisSelect s) n := by
  obtain ⟨m, hm, -⟩ := hr.parenthesisSelect hn.toGenuine hrule
  obtain ⟨g, hg, himage⟩ := hnested.group? (hn.child (Node.mem_childNodes_of_child? hm))
    (Node.rule_of_child? hm)
  unfold parenthesisSelect?
  simp only [hm, Option.bind_eq_bind, Option.bind_some, hg]
  exact ⟨_, rfl, .parenthesisSelect hrule rfl hm himage (ends_image hM)⟩

theorem selectStatement?_image (hM : M.Fits text) (hr : M.roles.Tells L M.context text)
    (hnested : nested.Images M text depth) (hn : n.Ready M.context text (depth + 1))
    (hrule : M.roles.isSelect n.rule) :
    ∃ s, selectStatement? M.roles M.context nested n = some s ∧ M.Image (.select s) n := by
  unfold selectStatement?
  split
  · rename_i h
    obtain ⟨s, hs, himage⟩ := simpleSelect?_image hM hr hnested hn h
    exact ⟨.simple s, by rw [hs]; rfl, .simple himage⟩
  split
  · rename_i h
    obtain ⟨s, hs, himage⟩ := unionSelect?_image hM hr hnested hn h
    exact ⟨.union s, by rw [hs]; rfl, .union himage⟩
  · rename_i hsimple hunion
    have h := ((hr.isSelect hrule).resolve_left hsimple).resolve_left hunion
    obtain ⟨s, hs, himage⟩ := parenthesisSelect?_image hM hr hnested hn h
    rw [if_pos h]
    exact ⟨.parenthesis s, by rw [hs]; rfl, .parenthesis himage⟩

-- Tables

theorem subqueryTable?_image (hr : M.roles.Tells L M.context text)
    (hnested : nested.Images M text depth) (hn : n.Ready M.context text (depth + 1))
    (hrule : n.rule = M.roles.subqueryTable) :
    ∃ t, subqueryTable? M.roles M.context nested n = some t ∧ M.Image (.item (.subquery t)) n := by
  obtain ⟨m, hm, -⟩ := hr.subqueryTable hn.toGenuine hrule
  obtain ⟨s, hs, himage⟩ := hnested.select? (hn.child (Node.mem_childNodes_of_findChild? hm))
    (Node.rule_of_findChild? hm)
  unfold subqueryTable?
  simp only [hm, Option.bind_eq_bind, Option.bind_some, hs]
  exact ⟨_, rfl, .itemSubquery hrule rfl rfl hm himage rfl⟩

theorem tableItem_image (hM : M.Fits text) (hr : M.roles.Tells L M.context text)
    (hnested : nested.Images M text depth) (hn : n.Ready M.context text (depth + 1))
    (hrule : M.roles.isJoinedItem n.rule) :
    M.Image (.item (tableItem M.roles M.context nested n)) n := by
  unfold tableItem
  dsimp only
  split
  · rename_i h
    obtain ⟨t, ht, -⟩ := hr.namedTable hn.toGenuine h
    rw [ht]
    exact .itemNamed h ht
  split
  · rename_i h
    obtain ⟨t, ht, himage⟩ := subqueryTable?_image hr hnested hn h
    rw [ht]
    exact himage
  split
  · rename_i h
    obtain ⟨m, hm, -⟩ := hr.nestedTables hn.toGenuine h
    rw [hm]
    exact .itemNested h hm (hnested.tables (hn.child (Node.mem_childNodes_of_child? hm))
      (Node.rule_of_child? hm))
  · rename_i hnamed hsubquery htables
    have h := (((hM.item hrule).resolve_left hnamed).resolve_left hsubquery).resolve_left htables
    exact .itemText ⟨rfl, h⟩

omit [Production ρ] [Grammar ρ] in
theorem names_eq {r : Roles ρ} {c : Context} (h : ∀ m ∈ n.childNodes, m.rule = r.name) :
    names r c n = n.childNodes.map fun m => (c.identifier m).value := by
  unfold names
  congr 1
  exact List.filter_eq_self.2 fun m hm => beq_of_eq (h m hm)

theorem joinCondition?_image (hM : M.Fits text) (hnested : nested.Images M text depth)
    (hn : n.Ready M.context text depth) (hrule : n.rule = M.roles.joinCondition) :
    ∃ j, joinCondition? M.roles M.context nested n = some j ∧ M.Image (.joinCondition j) n := by
  unfold joinCondition?
  obtain ⟨hon, m, hm, hfollows⟩ | ⟨hon, list, hlist⟩ := hM.joinCondition hn.formed hrule
  · have himage := hnested.expression (hn.below (Node.mem_childNodes_of_findChild? hm))
      (Node.rule_of_findChild? hm)
    unfold condition?
    rw [if_pos hon, hm]
    exact ⟨_, rfl, .joinOn hrule rfl hfollows himage⟩
  · have hformed := hn.formed.child (Node.mem_childNodes_of_child? hlist)
    have hnames := names_eq (c := M.context) fun m hm =>
      hM.names hformed (Node.rule_of_child? hlist) hm
    rw [if_neg (by simp [hon]), hlist]
    exact ⟨_, rfl, .joinSharing hrule rfl hlist hnames⟩

theorem join?_image (hM : M.Fits text) (hr : M.roles.Tells L M.context text)
    (hnested : nested.Images M text depth) (hn : n.Ready M.context text (depth + 1))
    (hrule : M.roles.isJoin n.rule) :
    ∃ j, join? M.roles M.context nested n = some j ∧ M.Image (.join j) n := by
  obtain ⟨m, kind, hm, hkind, hnatural, -⟩ := hr.join hn.toGenuine hrule
  have hitem := tableItem_image hM hr hnested
    (hn.child (Node.mem_childNodes_of_findChild? hm)).deeper (Node.rule_of_findChild? hm)
  have hcondition : Option.Rel (fun j k => M.Image (.joinCondition j) k)
      (n.child? M.roles.joinCondition >>= joinCondition? M.roles M.context nested)
      (n.child? M.roles.joinCondition) :=
    rel_bind fun k hk => joinCondition?_image hM hnested
      (hn.child (Node.mem_childNodes_of_child? hk)) (Node.rule_of_child? hk)
  unfold join?
  rw [hm, hkind]
  refine ⟨_, rfl, ?_⟩
  cases kind with
  | natural side =>
    have hnone : Option.Rel (fun j k => M.Image (.joinCondition j) k) none
        (n.child? M.roles.joinCondition) := hnatural side rfl ▸ .none
    exact .join hrule hkind rfl hm hitem hnone
  | _ => exact .join hrule hkind rfl hm hitem hcondition

theorem tableSource_image (hM : M.Fits text) (hr : M.roles.Tells L M.context text)
    (hnested : nested.Images M text depth) (hn : n.Ready M.context text (depth + 1))
    (hrule : n.rule = M.roles.tableSource ∨ M.kept n) :
    M.Image (.source (tableSource M.roles M.context nested n)) n := by
  unfold tableSource
  by_cases h : n.rule = M.roles.tableSource
  · obtain ⟨m, hm, hitem, -⟩ := hr.tableSource hn.toGenuine h
    have hitem := tableItem_image hM hr hnested
      (hn.child (Node.mem_childNodes_of_firstChild? hm)).deeper hitem
    have hjoins : List.Forall₂ (fun j k => M.Image (.join j) k)
        ((n.childrenThat M.roles.isJoin).filterMap (join? M.roles M.context nested))
        (n.childrenThat M.roles.isJoin) :=
      forall₂_filterMap fun k hk => join?_image hM hr hnested
        (hn.child (Node.mem_childNodes_of_mem_childrenThat hk)).deeper
        (Node.rule_of_mem_childrenThat hk)
    rw [if_pos h]
    unfold joinedTable?
    rw [hm]
    exact .sourceBase h rfl hm hitem hjoins
  · rw [if_neg h]
    exact .sourceText ⟨rfl, hrule.resolve_left h⟩

theorem tableSources_image (hM : M.Fits text) (hr : M.roles.Tells L M.context text)
    (hnested : nested.Images M text depth) (hn : n.Ready M.context text (depth + 1))
    (hrule : n.rule = M.roles.tableList) :
    M.Image (.tables (tableSources M.roles M.context nested n)) n :=
  .tables hrule rfl <| forall₂_map fun _ hm =>
    tableSource_image hM hr hnested (hn.child hm).deeper (hM.listed hn.formed hrule hm)

-- Expressions

theorem among?_image (hr : M.roles.Tells L M.context text) (hnested : nested.Images M text depth)
    (hn : n.Ready M.context text (depth + 1)) (hrule : n.rule = M.roles.among) :
    ∃ p, among? M.roles M.context nested n = some p ∧ M.Image (.predicate p) n := by
  obtain ⟨subject, hsubject, hsource⟩ := hr.among hn.toGenuine hrule
  have himage := hnested.predicate (hn.child (Node.mem_childNodes_of_findChild? hsubject))
    (Node.rule_of_findChild? hsubject)
  unfold among? inSource?
  rw [hsubject]
  obtain ⟨m, hm, -⟩ | ⟨hnone, list, hlist, hitems, -⟩ := hsource
  · obtain ⟨s, hs, hselect⟩ := hnested.select? (hn.child (Node.mem_childNodes_of_findChild? hm))
      (Node.rule_of_findChild? hm)
    rw [hm]
    dsimp only
    rw [hs]
    exact ⟨_, rfl, .amongRows hrule rfl hsubject himage rfl hm hselect⟩
  · have hlisted : List.Forall₂ (fun x k => M.Image (.expr x) k)
        (list.childNodes.map nested.expression) list.childNodes :=
      forall₂_map fun k hk => hnested.expression
        ((hn.child (Node.mem_childNodes_of_child? hlist)).below hk) (hitems k hk)
    rw [hnone, hlist]
    exact ⟨_, rfl, .amongItems hrule rfl hsubject himage rfl hnone hlist hlisted⟩

theorem comparison?_image (hr : M.roles.Tells L M.context text)
    (hnested : nested.Images M text depth) (hn : n.Ready M.context text (depth + 1))
    (hrule : n.rule = M.roles.comparison) :
    ∃ p, comparison? M.roles M.context nested n = some p ∧ M.Image (.predicate p) n := by
  obtain ⟨a, b, sign, hchildren, hsign, -⟩ := hr.comparison hn.toGenuine hrule
  have himage : ∀ m ∈ n.childrenThat M.roles.isPredicate,
      M.Image (.predicate (nested.predicate m)) m := fun m hm =>
    hnested.predicate (hn.child (Node.mem_childNodes_of_mem_childrenThat hm))
      (Node.rule_of_mem_childrenThat hm)
  simp only [hchildren, List.forall_mem_cons] at himage
  unfold comparison?
  rw [hchildren, hsign]
  exact ⟨_, rfl, .comparison hrule rfl hchildren himage.1 himage.2.1 hsign rfl⟩

theorem predicate_image (hM : M.Fits text) (hr : M.roles.Tells L M.context text)
    (hnested : nested.Images M text depth) (hn : n.Ready M.context text (depth + 1))
    (hrule : M.roles.isPredicate n.rule) :
    M.Image (.predicate (predicate M.roles M.context nested n)) n := by
  unfold predicate
  dsimp only
  split
  · rename_i h
    obtain ⟨p, hp, himage⟩ := comparison?_image hr hnested hn h
    rw [hp]
    exact himage
  split
  · rename_i h
    obtain ⟨p, hp, himage⟩ := among?_image hr hnested hn h
    rw [hp]
    exact himage
  split
  · rename_i h
    obtain ⟨m, hm, -⟩ := hr.atomPredicate hn.toGenuine h
    rw [hm]
    exact .predicateAtom h rfl hm (hM.atom hn.toGenuine h hm)
  · rename_i hcomparison hamong hatom
    have h := (((hM.predicate hrule).resolve_left hcomparison).resolve_left hamong).resolve_left
      hatom
    exact .predicateText ⟨rfl, h⟩

theorem expression_image (hM : M.Fits text) (hr : M.roles.Tells L M.context text)
    (hnested : nested.Images M text depth) (hn : n.Ready M.context text (depth + 1))
    (hrule : M.roles.isExpression n.rule) :
    M.Image (.expr (expression M.roles M.context nested n)) n := by
  unfold expression
  cases hoperator : M.roles.connective? M.context n with
  | some operator =>
    exact .logical rfl hoperator <| forall₂_map fun m hm => hnested.expression
      (hn.child (Node.mem_childNodes_of_mem_childrenThat hm)) (Node.rule_of_mem_childrenThat hm)
  | none =>
    by_cases h : n.rule = M.roles.predicateExpression
    · obtain ⟨m, hm, hpredicate, -⟩ := hr.predicateExpression hn.toGenuine h
      rw [if_pos h, hm]
      exact .predicate h rfl hm (hnested.predicate
        (hn.child (Node.mem_childNodes_of_firstChild? hm)) hpredicate)
    · rw [if_neg h]
      exact .exprText ⟨rfl, (hM.expression hn.toGenuine hrule hoperator).resolve_left h⟩

end Reading

namespace Reader

variable [DecidableEq ρ] [Production ρ] [Grammar ρ] {M : Mirror ρ} {L : Lineage ρ}
  {text : List Char}

theorem attempt_images (hM : M.Fits text) (hr : M.roles.Tells L M.context text)
    {nested : Reader ρ} {depth : Nat} (hnested : nested.Images M text depth) :
    (attempt M.roles M.context nested).Images M text (depth + 1) where
  select? hn := Reading.selectStatement?_image hM hr hnested hn
  union? hn := Reading.unionSelect?_image hM hr hnested hn
  group? hn := Reading.queryGroup?_image hM hr hnested hn
  tables hn := Reading.tableSources_image hM hr hnested hn
  expression hn := Reading.expression_image hM hr hnested hn
  predicate hn := Reading.predicate_image hM hr hnested hn

theorem ofDepth_images (hM : M.Fits text) (hr : M.roles.Tells L M.context text) (depth : Nat) :
    (ofDepth M.roles M.context depth).Images M text depth := by
  induction depth with
  | zero =>
    constructor
    all_goals
      intro n hn
      exact absurd hn n.not_ready_zero
  | succ depth ih => exact attempt_images hM hr ih

end Reader

end SqlScript
