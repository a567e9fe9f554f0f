import Mathlib.Data.List.Forall2
import Mathlib.Data.Option.Basic
import SqlScript.Proofs.Lineage.Reading

/-!
Statements that mirror their trees. Each part of a statement is the image of one production: what it
lists are the images of the productions nested there, one for one, what is optional is there just if
its production is, and what is kept as text is of a kind that is not looked into.
-/

namespace SqlScript

open SqlScript.Tree (Node Element)

variable {ρ : Type}

/--
The second production stands in the first one, right behind the keyword.
-/
def Tree.Node.Follows (word : Keyword) (n m : Node ρ) : Prop :=
  ∃ t : Token, t.isKeyword word ∧ [.token t, .node m] <:+: n.children

theorem Tree.Node.Follows.mem_childNodes {word : Keyword} {n m : Node ρ} (h : n.Follows word m) :
    m ∈ n.childNodes := by
  obtain ⟨t, -, hsub⟩ := h
  exact List.mem_filterMap.2 ⟨.node m, hsub.subset (by simp), rfl⟩

def SelectElement.text? : SelectElement → Option Unstructured
  | function body | expression body => some body
  | _ => none

def Atom.text? : Atom → Option Unstructured
  | unstructured body => some body
  | _ => none

/--
What statements are held against: what a grammar makes of its productions, and which of them may be
kept as text.
-/
structure Mirror (ρ : Type) where
  roles : Roles ρ
  context : Context
  kept : Node ρ → Prop

namespace Mirror

section

variable [DecidableEq ρ] [Production ρ] (M : Mirror ρ)

def Keeps (body : Unstructured) (n : Node ρ) : Prop :=
  body = M.context.unstructured n ∧ M.kept n

/--
The condition that a clause asks for: the expression behind its keyword. There is none just if there
is no clause, or no expression behind the keyword.
-/
def Asks (word : Keyword) (clause? : Option (Node ρ)) : Option (Node ρ) → Prop
  | some m => ∃ clause, clause? = some clause ∧ clause.Follows word m ∧ M.roles.isExpression m.rule
  | none => ∀ clause m, clause? = some clause → clause.Follows word m →
      !M.roles.isExpression m.rule

structure Ends (orderBy : Option Unstructured) (limit : Option Limit) (n : Node ρ) : Prop where
  orderBy : Option.Rel M.Keeps orderBy (n.child? M.roles.orderBy)
  limit : limit = (n.child? M.roles.limitClause).map (M.roles.limit M.context)

mutual

/--
The part is the image of the production.
-/
inductive Image : Part → Node ρ → Prop
  | unstructured {body : Unstructured} {n : Node ρ} :
    M.Keeps body n → Image (.unstructured body) n
  -- Selects
  | simple {s : SimpleSelect} {n : Node ρ} :
    Image (.simpleSelect s) n → Image (.select (.simple s)) n
  | union {s : UnionSelect} {n : Node ρ} :
    Image (.unionSelect s) n → Image (.select (.union s)) n
  | parenthesis {s : ParenthesisSelect} {n : Node ρ} :
    Image (.parenthesisSelect s) n → Image (.select (.parenthesis s)) n
  | simpleSelect {s : SimpleSelect} {n m : Node ρ} (rule : n.rule = M.roles.simpleSelect)
    (excerpt : s.excerpt = M.context.excerptOf n)
    (child : n.child? M.roles.specification = some m) (query : Image (.specification s.query) m)
    (lock : Option.Rel M.Keeps s.lock (n.child? M.roles.lock)) : Image (.simpleSelect s) n
  | unionSelect {s : UnionSelect} {n m : Node ρ} (rule : n.rule = M.roles.unionSelect)
    (excerpt : s.excerpt = M.context.excerptOf n)
    (child : n.findChild? M.roles.isOperand = some m) (first : Image (.operand s.first) m)
    (parts : List.Forall₂ (fun p k => PartImage p k) s.parts (n.childrenOf M.roles.unionPart))
    (ending : M.Ends s.orderBy s.limit n) : Image (.unionSelect s) n
  | parenthesisSelect {s : ParenthesisSelect} {n m : Node ρ}
    (rule : n.rule = M.roles.parenthesisSelect) (excerpt : s.excerpt = M.context.excerptOf n)
    (child : n.child? M.roles.group = some m) (group : Image (.group s.group) m)
    (ending : M.Ends s.orderBy s.limit n) : Image (.parenthesisSelect s) n
  | operandSpecification {q : QuerySpecification} {n : Node ρ} :
    Image (.specification q) n → Image (.operand (.specification q)) n
  | operandGroup {g : QueryGroup} {n : Node ρ} :
    Image (.group g) n → Image (.operand (.group g)) n
  | operandUnion {s : UnionSelect} {n : Node ρ} :
    Image (.unionSelect s) n → Image (.operand (.union s)) n
  | groupSpecification {e : Excerpt} {q : QuerySpecification} {n m : Node ρ}
    (rule : n.rule = M.roles.group) (excerpt : e = M.context.excerptOf n)
    (child : n.firstChild? = some m) (body : Image (.specification q) m) :
    Image (.group ⟨e, .specification q⟩) n
  | groupUnion {e : Excerpt} {s : UnionSelect} {n m : Node ρ} (rule : n.rule = M.roles.group)
    (excerpt : e = M.context.excerptOf n) (child : n.firstChild? = some m)
    (body : Image (.unionSelect s) m) : Image (.group ⟨e, .union s⟩) n
  | groupNested {e : Excerpt} {g : QueryGroup} {n m : Node ρ} (rule : n.rule = M.roles.group)
    (excerpt : e = M.context.excerptOf n) (child : n.firstChild? = some m)
    (body : Image (.group g) m) : Image (.group ⟨e, .nested g⟩) n
  | specification {q : QuerySpecification} {n m : Node ρ} {filter? groupFilter? : Option (Node ρ)}
    (rule : n.rule = M.roles.specification) (excerpt : q.excerpt = M.context.excerptOf n)
    (distinct : q.distinct = M.roles.isDistinct n) (child : n.child? M.roles.elements = some m)
    (elements : Image (.elements q.elements) m)
    (tables : Option.Rel (fun ts k => Image (.tables ts) k) q.tables (M.roles.tables? n))
    (filter : M.Asks .WHERE (M.roles.rowCondition? n) filter?)
    (condition : Option.Rel (fun x k => Image (.expr x) k) q.condition filter?)
    (groupBy : Option.Rel M.Keeps q.groupBy (n.child? M.roles.groupBy))
    (groupFilter : M.Asks .HAVING (n.child? M.roles.having) groupFilter?)
    (having : Option.Rel (fun x k => Image (.expr x) k) q.having groupFilter?)
    (ending : M.Ends q.orderBy q.limit n) : Image (.specification q) n
  | elements {es : SelectElements} {n : Node ρ} (rule : n.rule = M.roles.elements)
    (excerpt : es.excerpt = M.context.excerptOf n) (star : es.star = n.hasToken .star)
    (elements : List.Forall₂ (fun e k => Image (.element e) k) es.elements n.childNodes) :
    Image (.elements es) n
  | element {e : SelectElement} {n : Node ρ} (read : M.roles.element? M.context n = some e)
    (excerpt : e.excerpt = M.context.excerptOf n)
    (text : ∀ body, e.text? = some body → M.Keeps body n) : Image (.element e) n
  -- Tables
  | tables {ts : TableSources} {n : Node ρ} (rule : n.rule = M.roles.tableList)
    (excerpt : ts.excerpt = M.context.excerptOf n)
    (sources : List.Forall₂ (fun s k => Image (.source s) k) ts.sources n.childNodes) :
    Image (.tables ts) n
  | sourceBase {s : JoinedTable} {n m : Node ρ} (rule : n.rule = M.roles.tableSource)
    (excerpt : s.excerpt = M.context.excerptOf n) (child : n.firstChild? = some m)
    (item : Image (.item s.item) m)
    (joins : List.Forall₂ (fun j k => Image (.join j) k) s.joins (n.childrenThat M.roles.isJoin)) :
    Image (.source (.base s)) n
  | sourceText {body : Unstructured} {n : Node ρ} :
    M.Keeps body n → Image (.source (.unstructured body)) n
  | itemNamed {t : NamedTable} {n : Node ρ} (rule : n.rule = M.roles.namedTable)
    (read : M.roles.namedTable? M.context n = some t) : Image (.item (.named t)) n
  | itemSubquery {t : SubqueryTable} {n m : Node ρ} (rule : n.rule = M.roles.subqueryTable)
    (excerpt : t.excerpt = M.context.excerptOf n) (isLateral : t.lateral = n.hasKeyword .LATERAL)
    (child : n.findChild? M.roles.isSelect = some m) (select : Image (.select t.select) m)
    (asName : t.asName = M.roles.alias? M.context n) : Image (.item (.subquery t)) n
  | itemNested {ts : TableSources} {n m : Node ρ} (rule : n.rule = M.roles.nestedTables)
    (child : n.child? M.roles.tableList = some m) (tables : Image (.tables ts) m) :
    Image (.item (.nested ts)) n
  | itemText {body : Unstructured} {n : Node ρ} :
    M.Keeps body n → Image (.item (.unstructured body)) n
  | join {j : Join} {kind : JoinKind} {n m : Node ρ} (rule : M.roles.isJoin n.rule)
    (read : M.roles.joinKind? n = some kind)
    (form : j = kind.join (M.context.excerptOf n) j.item j.condition)
    (child : n.findChild? M.roles.isJoinedItem = some m) (item : Image (.item j.item) m)
    (condition : Option.Rel (fun k m => Image (.joinCondition k) m) j.condition
      (n.child? M.roles.joinCondition)) : Image (.join j) n
  | joinOn {e : Excerpt} {x : Expr} {n m : Node ρ} (rule : n.rule = M.roles.joinCondition)
    (excerpt : e = M.context.excerptOf n) (child : n.Follows .ON m) (condition : Image (.expr x) m) :
    Image (.joinCondition (.on e x)) n
  | joinSharing {e : Excerpt} {columns : List String} {n m : Node ρ}
    (rule : n.rule = M.roles.joinCondition) (excerpt : e = M.context.excerptOf n)
    (child : n.child? M.roles.nameList = some m)
    (names : columns = m.childNodes.map fun k => (M.context.identifier k).value) :
    Image (.joinCondition (.sharing e columns)) n
  -- Expressions
  | logical {e : Excerpt} {o : LogicalOperator} {xs : List Expr} {n : Node ρ}
    (excerpt : e = M.context.excerptOf n) (read : M.roles.connective? M.context n = some o)
    (operands : List.Forall₂ (fun x k => Image (.expr x) k) xs
      (n.childrenThat M.roles.isExpression)) : Image (.expr (.logical e o xs)) n
  | predicate {e : Excerpt} {p : Predicate} {n m : Node ρ}
    (rule : n.rule = M.roles.predicateExpression) (excerpt : e = M.context.excerptOf n)
    (child : n.firstChild? = some m) (predicate : Image (.predicate p) m) :
    Image (.expr (.predicate e p)) n
  | exprText {body : Unstructured} {n : Node ρ} :
    M.Keeps body n → Image (.expr (.unstructured body)) n
  | comparison {e : Excerpt} {p q : Predicate} {o : String} {n a b sign : Node ρ}
    (rule : n.rule = M.roles.comparison) (excerpt : e = M.context.excerptOf n)
    (children : n.childrenThat M.roles.isPredicate = [a, b]) (left : Image (.predicate p) a)
    (right : Image (.predicate q) b) (child : n.child? M.roles.comparisonOperator = some sign)
    (operator : o = M.context.text sign) : Image (.predicate (.comparison e p q o)) n
  | amongItems {e : Excerpt} {p : Predicate} {negated : Bool} {xs : List Expr} {n m list : Node ρ}
    (rule : n.rule = M.roles.among) (excerpt : e = M.context.excerptOf n)
    (child : n.findChild? M.roles.isPredicate = some m) (subject : Image (.predicate p) m)
    (negation : negated = n.hasKeyword .NOT) (noSelect : n.findChild? M.roles.isSelect = none)
    (listed : n.child? M.roles.inList = some list)
    (items : List.Forall₂ (fun x k => Image (.expr x) k) xs list.childNodes) :
    Image (.predicate (.among e p negated (.list xs))) n
  | amongRows {e : Excerpt} {p : Predicate} {negated : Bool} {s : Select} {n m k : Node ρ}
    (rule : n.rule = M.roles.among) (excerpt : e = M.context.excerptOf n)
    (child : n.findChild? M.roles.isPredicate = some m) (subject : Image (.predicate p) m)
    (negation : negated = n.hasKeyword .NOT) (asked : n.findChild? M.roles.isSelect = some k)
    (select : Image (.select s) k) : Image (.predicate (.among e p negated (.select s))) n
  | predicateAtom {e : Excerpt} {a : Atom} {n m : Node ρ} (rule : n.rule = M.roles.atomPredicate)
    (excerpt : e = M.context.excerptOf n) (child : M.roles.atom? n = some m)
    (atom : Image (.atom a) m) : Image (.predicate (.atom e a)) n
  | predicateText {body : Unstructured} {n : Node ρ} :
    M.Keeps body n → Image (.predicate (.unstructured body)) n
  | atom {a : Atom} {n : Node ρ} (read : a = M.roles.atom M.context n)
    (text : ∀ body, a.text? = some body → M.Keeps body n) : Image (.atom a) n

inductive PartImage : UnionPart → Node ρ → Prop
  | mk {p : UnionPart} {n m : Node ρ} {start stop : Token} (rule : n.rule = M.roles.unionPart)
    (excerpt : p.excerpt = M.context.excerptOf n) (first : n.tokens.head? = some start)
    (last : n.tokens.getLast? = some stop)
    (operator : p.operator = (start.span.merge stop.span).slice M.context.source)
    (child : M.roles.partOperand? n = some m) (operand : Image (.operand p.operand) m) :
    PartImage p n

end

def ImageCondition (word : Keyword) (clause? : Option (Node ρ)) (x? : Option Expr) : Prop :=
  ∃ m?, M.Asks word clause? m? ∧ Option.Rel (fun x m => M.Image (.expr x) m) x? m?

end

end Mirror

theorem exists_of_forall₂ {α β : Type} {R : α → β → Prop} {as : List α} {bs : List β}
    (h : List.Forall₂ R as bs) {a : α} (ha : a ∈ as) : ∃ b ∈ bs, R a b := by
  induction h with
  | nil => contradiction
  | cons hR _ ih =>
    obtain rfl | ha := List.mem_cons.1 ha
    · exact ⟨_, List.mem_cons_self, hR⟩
    · obtain ⟨b, hb, hR⟩ := ih ha
      exact ⟨b, List.mem_cons_of_mem _ hb, hR⟩

theorem exists_of_rel {α β : Type} {R : α → β → Prop} {a? : Option α} {b? : Option β}
    (h : Option.Rel R a? b?) {a : α} (ha : a? = some a) : ∃ b, b? = some b ∧ R a b := by
  subst ha
  cases h with
  | some hR => exact ⟨_, rfl, hR⟩

namespace Part

def IsWord : Part → Prop
  | excerpt _ | tableName _ | columnName _ | dottedName _ | limit _ | createDatabase _ => True
  | _ => False

theorem IsWord.pieces {p : Part} (h : p.IsWord) : ∀ q ∈ p.pieces, ∃ e, q = excerpt e := by
  cases p
  all_goals first
    | contradiction
    | simp [Part.pieces]

theorem forall_mem_all_of_isWord {P : Part → Prop} {p : Part} (h : p.IsWord) (hp : P p)
    (hexcerpt : ∀ e, P (excerpt e)) : ∀ q ∈ p.all, P q := by
  refine forall_mem_all.2 ⟨hp, fun q hq => ?_⟩
  obtain ⟨e, rfl⟩ := h.pieces q hq
  exact forall_mem_all.2 ⟨hexcerpt e, by simp [Part.pieces]⟩

/--
The part is a word, or related to something inside the production.
-/
def Inside (R : Part → Node ρ → Prop) (n : Node ρ) (p : Part) : Prop :=
  p.IsWord ∨ ∃ m, n.Contains m ∧ R p m

section

variable {R S : Part → Node ρ → Prop} {p : Part} {n m : Node ρ}

theorem Inside.of_isWord (h : p.IsWord) : Inside R n p :=
  .inl h

@[simp]
theorem inside_excerpt (e : Excerpt) : Inside R n (.excerpt e) :=
  .inl trivial

@[simp]
theorem inside_tableName (name : TableName) : Inside R n (.tableName name) :=
  .inl trivial

@[simp]
theorem inside_columnName (name : ColumnName) : Inside R n (.columnName name) :=
  .inl trivial

theorem Inside.intro (h : R p m) (hm : n.Contains m) : Inside R n p :=
  .inr ⟨m, hm, h⟩

theorem Inside.self (h : R p n) : Inside R n p :=
  .intro h (.refl n)

theorem Inside.trans (h : Inside R m p) (hm : n.Contains m) : Inside R n p :=
  h.imp id fun ⟨k, hk, hR⟩ => ⟨k, hm.trans hk, hR⟩

theorem Inside.mono (h : Inside R n p) (hRS : ∀ m, R p m → S p m) : Inside S n p :=
  h.imp id fun ⟨k, hk, hR⟩ => ⟨k, hk, hRS k hR⟩

theorem inside_of_forall₂ {α : Type} {part : α → Part} {as : List α} {ns : List (Node ρ)}
    (h : List.Forall₂ (fun a k => R (part a) k) as ns) (hns : ∀ k ∈ ns, n.Contains k) :
    ∀ a ∈ as, Inside R n (part a) := by
  intro a ha
  obtain ⟨k, hk, hR⟩ := exists_of_forall₂ h ha
  exact .intro hR (hns k hk)

theorem inside_of_rel {α : Type} {part : α → Part} {a? : Option α} {n? : Option (Node ρ)}
    (h : Option.Rel (fun a k => R (part a) k) a? n?) (hn : ∀ k, n? = some k → n.Contains k) :
    ∀ a, a? = some a → Inside R n (part a) := by
  intro a ha
  obtain ⟨k, hk, hR⟩ := exists_of_rel h ha
  exact .intro hR (hn k hk)

/-- What holds of all that is related to a production of a tree, and of the words in it, holds of
all parts of what is related to one, if the pieces of what is related are words or related to
something further inside. -/
theorem forall_mem_all_of_related {P : Part → Prop} {root : Node ρ}
    (hexcerpt : ∀ e, P (excerpt e)) (hrelated : ∀ {p n}, root.Contains n → R p n → P p)
    (hpieces : ∀ {p n}, root.Contains n → R p n → ∀ q ∈ p.pieces, Inside R n q)
    (hwords : ∀ {p n}, root.Contains n → R p n → ∀ q ∈ p.pieces, q.IsWord → P q) {p : Part}
    {n : Node ρ} (hn : root.Contains n) (h : R p n) : ∀ q ∈ p.all, P q := by
  refine forall_mem_all.2 ⟨hrelated hn h, fun q hq => ?_⟩
  obtain hword | ⟨m, hm, hR⟩ := hpieces hn h q hq
  · exact forall_mem_all_of_isWord hword (hwords hn h q hq hword) hexcerpt
  · exact forall_mem_all_of_related hexcerpt hrelated hpieces hwords (hn.trans hm) hR
termination_by sizeOf p
decreasing_by exact sizeOf_lt_of_mem_pieces hq

end

end Part

namespace Mirror

section

open SqlScript.Part (Inside inside_excerpt inside_of_forall₂ inside_of_rel)

variable [DecidableEq ρ] [Production ρ] {M : Mirror ρ} {n : Node ρ}

theorem inside_of_keeps {body? : Option Unstructured} {rule : ρ}
    (h : Option.Rel M.Keeps body? (n.child? rule)) :
    ∀ body, body? = some body → Inside M.Image n (.unstructured body) := by
  intro body hbody
  obtain ⟨k, hk, hkeeps⟩ := exists_of_rel h hbody
  exact .intro (.unstructured hkeeps) (.of_child? hk)

theorem Asks.inside {word : Keyword} {clause? m? : Option (Node ρ)} {x? : Option Expr}
    (h : M.Asks word clause? m?) (hx : Option.Rel (fun x k => M.Image (.expr x) k) x? m?)
    (hclause : ∀ k, clause? = some k → n.Contains k) :
    ∀ x, x? = some x → Inside M.Image n (.expr x) := by
  refine inside_of_rel hx ?_
  rintro m rfl
  obtain ⟨k, hk, hfollows, -⟩ := h
  exact (hclause k hk).trans (.of_mem hfollows.mem_childNodes)

theorem ImageCondition.inside {word : Keyword} {clause? : Option (Node ρ)} {x? : Option Expr}
    (h : M.ImageCondition word clause? x?) (hclause : ∀ k, clause? = some k → n.Contains k) :
    ∀ x, x? = some x → Inside M.Image n (.expr x) := by
  obtain ⟨_, hasks, hx⟩ := h
  exact hasks.inside hx hclause

theorem Ends.inside {orderBy : Option Unstructured} {limit : Option Limit}
    (h : M.Ends orderBy limit n) : ∀ q ∈ Part.tail orderBy limit, Inside M.Image n q := by
  unfold Part.tail
  rw [List.forall_mem_append, Part.forall_mem_optional, Part.forall_mem_optional]
  exact ⟨inside_of_keeps h.orderBy, fun _ _ => .of_isWord trivial⟩

theorem PartImage.inside {p : UnionPart} (hM : M.roles.Inward) (h : M.PartImage p n) :
    ∀ q ∈ p.pieces, Inside M.Image n q := by
  cases h with
  | mk _ _ _ _ _ hchild hoperand =>
    simpa [UnionPart.pieces] using .intro hoperand (hM.partOperand? hchild)

namespace Image

theorem select_inside {s : Select} (h : M.Image (.select s) n) :
    ∀ q ∈ s.pieces, Inside M.Image n q := by
  cases h with
  | simple h => exact List.forall_mem_singleton.2 (.self h)
  | union h => exact List.forall_mem_singleton.2 (.self h)
  | parenthesis h => exact List.forall_mem_singleton.2 (.self h)

theorem simpleSelect_inside {s : SimpleSelect} (h : M.Image (.simpleSelect s) n) :
    ∀ q ∈ s.pieces, Inside M.Image n q := by
  cases h with
  | simpleSelect _ _ hchild hquery hlock =>
    simp only [SimpleSelect.pieces, List.forall_mem_append, List.forall_mem_cons,
      Part.forall_mem_optional, inside_excerpt, List.not_mem_nil, false_implies, implies_true,
      and_true, true_and]
    exact ⟨.intro hquery (.of_child? hchild), inside_of_keeps hlock⟩

theorem unionSelect_inside (hM : M.roles.Inward) {s : UnionSelect}
    (h : M.Image (.unionSelect s) n) : ∀ q ∈ s.pieces, Inside M.Image n q := by
  cases h with
  | unionSelect _ _ hchild hfirst hparts hending =>
    simp only [UnionSelect.pieces, List.forall_mem_append, List.forall_mem_cons,
      List.forall_mem_flatMap, inside_excerpt, List.not_mem_nil, false_implies, implies_true,
      and_true, true_and]
    refine ⟨⟨.intro hfirst (.of_findChild? hchild), fun p hp q hq => ?_⟩, hending.inside⟩
    obtain ⟨k, hk, hpart⟩ := exists_of_forall₂ hparts hp
    exact (hpart.inside hM q hq).trans (.of_childrenOf hk)

theorem parenthesisSelect_inside {s : ParenthesisSelect} (h : M.Image (.parenthesisSelect s) n) :
    ∀ q ∈ s.pieces, Inside M.Image n q := by
  cases h with
  | parenthesisSelect _ _ hchild hgroup hending =>
    simp only [ParenthesisSelect.pieces, List.forall_mem_append, List.forall_mem_cons,
      inside_excerpt, List.not_mem_nil, false_implies, implies_true, and_true, true_and]
    exact ⟨.intro hgroup (.of_child? hchild), hending.inside⟩

theorem operand_inside {o : QueryOperand} (h : M.Image (.operand o) n) :
    ∀ q ∈ o.pieces, Inside M.Image n q := by
  cases h with
  | operandSpecification h => exact List.forall_mem_singleton.2 (.self h)
  | operandGroup h => exact List.forall_mem_singleton.2 (.self h)
  | operandUnion h => exact List.forall_mem_singleton.2 (.self h)

theorem group_inside {g : QueryGroup} (h : M.Image (.group g) n) :
    ∀ q ∈ g.pieces, Inside M.Image n q := by
  cases h with
  | groupSpecification _ _ hchild hbody =>
    simpa [QueryGroup.pieces, QueryBody.pieces] using .intro hbody (.of_firstChild? hchild)
  | groupUnion _ _ hchild hbody =>
    simpa [QueryGroup.pieces, QueryBody.pieces] using .intro hbody (.of_firstChild? hchild)
  | groupNested _ _ hchild hbody =>
    simpa [QueryGroup.pieces, QueryBody.pieces] using .intro hbody (.of_firstChild? hchild)

theorem specification_inside (hM : M.roles.Inward) {q : QuerySpecification}
    (h : M.Image (.specification q) n) : ∀ k ∈ q.pieces, Inside M.Image n k := by
  cases h with
  | specification _ _ _ hchild helements htables hfilter hcondition hgroupBy hgroups hhaving
      hending =>
    simp only [QuerySpecification.pieces, List.forall_mem_append, List.forall_mem_cons,
      Part.forall_mem_optional, inside_excerpt, List.not_mem_nil, false_implies, implies_true,
      and_true, true_and]
    refine ⟨⟨⟨⟨⟨.intro helements (.of_child? hchild), ?_⟩, ?_⟩, inside_of_keeps hgroupBy⟩, ?_⟩,
      hending.inside⟩
    · exact inside_of_rel htables fun _ => hM.tables?
    · exact hfilter.inside hcondition fun _ => hM.rowCondition?
    · exact hgroups.inside hhaving fun _ => .of_child?

theorem elements_inside {es : SelectElements} (h : M.Image (.elements es) n) :
    ∀ q ∈ es.pieces, Inside M.Image n q := by
  cases h with
  | elements _ _ _ helements =>
    simp only [SelectElements.pieces, List.forall_mem_cons, List.forall_mem_map, inside_excerpt,
      true_and]
    exact inside_of_forall₂ helements fun _ => .of_mem

theorem element_inside {e : SelectElement} (h : M.Image (.element e) n) :
    ∀ q ∈ e.pieces, Inside M.Image n q := by
  cases h with
  | element _ _ htext =>
    cases e with
    | star => simp [SelectElement.pieces, Part.forall_mem_optional, Inside, Part.IsWord]
    | column => simp [SelectElement.pieces]
    | function body | expression body =>
      exact List.forall_mem_singleton.2 (.self (.unstructured (htext body rfl)))

theorem tables_inside {ts : TableSources} (h : M.Image (.tables ts) n) :
    ∀ q ∈ ts.pieces, Inside M.Image n q := by
  cases h with
  | tables _ _ hsources =>
    simp only [TableSources.pieces, List.forall_mem_cons, List.forall_mem_map, inside_excerpt,
      true_and]
    exact inside_of_forall₂ hsources fun _ => .of_mem

theorem source_inside {s : TableSource} (h : M.Image (.source s) n) :
    ∀ q ∈ s.pieces, Inside M.Image n q := by
  cases h with
  | sourceBase _ _ hchild hitem hjoins =>
    simp only [TableSource.pieces, List.forall_mem_append, List.forall_mem_cons,
      List.forall_mem_map, inside_excerpt, List.not_mem_nil, false_implies, implies_true,
      and_true, true_and]
    exact ⟨.intro hitem (.of_firstChild? hchild),
      inside_of_forall₂ hjoins fun _ => .of_childrenThat⟩
  | sourceText h => exact List.forall_mem_singleton.2 (.self (.unstructured h))

theorem item_inside {i : TableItem} (h : M.Image (.item i) n) : ∀ q ∈ i.pieces, Inside M.Image n q := by
  cases h with
  | itemNamed => simp [TableItem.pieces]
  | itemSubquery _ _ _ hchild hselect =>
    simpa [TableItem.pieces] using .intro hselect (.of_findChild? hchild)
  | itemNested _ hchild htables =>
    exact List.forall_mem_singleton.2 (.intro htables (.of_child? hchild))
  | itemText h => exact List.forall_mem_singleton.2 (.self (.unstructured h))

theorem join_inside {j : Join} (h : M.Image (.join j) n) : ∀ q ∈ j.pieces, Inside M.Image n q := by
  cases h with
  | join _ _ _ hchild hitem hcondition =>
    simp only [Join.pieces, List.forall_mem_append, List.forall_mem_cons,
      Part.forall_mem_optional, inside_excerpt, List.not_mem_nil, false_implies, implies_true,
      and_true, true_and]
    exact ⟨.intro hitem (.of_findChild? hchild), inside_of_rel hcondition fun _ => .of_child?⟩

theorem joinCondition_inside {j : JoinCondition} (h : M.Image (.joinCondition j) n) :
    ∀ q ∈ j.pieces, Inside M.Image n q := by
  cases h with
  | joinOn _ _ hchild hcondition =>
    simpa [JoinCondition.pieces] using .intro hcondition (.of_mem hchild.mem_childNodes)
  | joinSharing => simp [JoinCondition.pieces]

theorem expr_inside {x : Expr} (h : M.Image (.expr x) n) : ∀ q ∈ x.pieces, Inside M.Image n q := by
  cases h with
  | logical _ _ hoperands =>
    simp only [Expr.pieces, List.forall_mem_cons, List.forall_mem_map, inside_excerpt, true_and]
    exact inside_of_forall₂ hoperands fun _ => .of_childrenThat
  | predicate _ _ hchild hpredicate =>
    simpa [Expr.pieces] using .intro hpredicate (.of_firstChild? hchild)
  | exprText h => exact List.forall_mem_singleton.2 (.self (.unstructured h))

theorem predicate_inside (hM : M.roles.Inward) {p : Predicate} (h : M.Image (.predicate p) n) :
    ∀ q ∈ p.pieces, Inside M.Image n q := by
  cases h with
  | comparison _ _ hchildren hleft hright =>
    have hcontains : ∀ k ∈ n.childrenThat M.roles.isPredicate, n.Contains k :=
      fun _ => .of_childrenThat
    simp only [hchildren, List.forall_mem_cons] at hcontains
    simpa [Predicate.pieces] using
      ⟨.intro hleft hcontains.1, .intro hright hcontains.2.1⟩
  | amongItems _ _ hchild hsubject _ _ hlist hitems =>
    simp only [Predicate.pieces, InSource.pieces, List.forall_mem_append, List.forall_mem_cons,
      List.forall_mem_map, inside_excerpt, List.not_mem_nil, false_implies, implies_true,
      and_true, true_and]
    exact ⟨.intro hsubject (.of_findChild? hchild),
      inside_of_forall₂ hitems fun _ hk => (Node.Contains.of_child? hlist).trans (.of_mem hk)⟩
  | amongRows _ _ hchild hsubject _ hasked hselect =>
    simpa [Predicate.pieces, InSource.pieces] using
      ⟨.intro hsubject (.of_findChild? hchild), .intro hselect (.of_findChild? hasked)⟩
  | predicateAtom _ _ hchild hatom =>
    simpa [Predicate.pieces] using .intro hatom (hM.atom? hchild)
  | predicateText h => exact List.forall_mem_singleton.2 (.self (.unstructured h))

theorem atom_inside {a : Atom} (h : M.Image (.atom a) n) : ∀ q ∈ a.pieces, Inside M.Image n q := by
  cases h with
  | atom _ htext =>
    cases a with
    | constant => simp [Atom.pieces]
    | column => simp [Atom.pieces]
    | unstructured body =>
      exact List.forall_mem_singleton.2 (.self (.unstructured (htext body rfl)))

theorem pieces_inside (hM : M.roles.Inward) (h : M.Image p n) : ∀ q ∈ p.pieces, Inside M.Image n q := by
  cases p with
  | select => exact h.select_inside
  | simpleSelect => exact h.simpleSelect_inside
  | unionSelect => exact h.unionSelect_inside hM
  | parenthesisSelect => exact h.parenthesisSelect_inside
  | specification => exact h.specification_inside hM
  | operand => exact h.operand_inside
  | group => exact h.group_inside
  | elements => exact h.elements_inside
  | element => exact h.element_inside
  | tables => exact h.tables_inside
  | source => exact h.source_inside
  | item => exact h.item_inside
  | join => exact h.join_inside
  | joinCondition => exact h.joinCondition_inside
  | expr => exact h.expr_inside
  | predicate => exact h.predicate_inside hM
  | atom => exact h.atom_inside
  | _ =>
    cases h
    all_goals simp [Part.pieces]

end Image

end

end Mirror

end SqlScript
