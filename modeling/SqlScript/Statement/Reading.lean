import SqlScript.Statement.Basic

/-!
Reading queries, tables and expressions from syntax trees. What the productions of a grammar stand
for is told by their roles, so that one reader serves all grammars. A production that does not have
the shape its role asks for is kept as text, or left out where the whole around it makes sense
without it.
-/

namespace SqlScript

open SqlScript.Tree

inductive JoinKind where
  | inner
  | straight
  | outer (side : JoinSide)
  | natural (side : Option JoinSide)
  deriving DecidableEq, Repr

def JoinKind.join (kind : JoinKind) (excerpt : Excerpt) (item : TableItem)
    (condition : Option JoinCondition) : Join :=
  match kind with
  | inner => .inner excerpt item condition
  | straight => .straight excerpt item condition
  | outer side => .outer excerpt side item condition
  | natural side => .natural excerpt side item

/--
What the productions of a grammar stand for.
-/
structure Roles (ρ : Type) where
  -- Selects
  simpleSelect : ρ
  unionSelect : ρ
  parenthesisSelect : ρ
  specification : ρ
  group : ρ
  unionPart : ρ
  /-- The kinds that operands of a union have. -/
  isOperand : ρ → Bool
  /-- The operand of a part of a union. -/
  partOperand? : Node ρ → Option (Node ρ)
  -- Clauses
  isDistinct : Node ρ → Bool
  elements : ρ
  element? : Context → Node ρ → Option SelectElement
  /-- The list of tables of a select. -/
  tables? : Node ρ → Option (Node ρ)
  /-- What holds the condition on the rows of a select. -/
  rowCondition? : Node ρ → Option (Node ρ)
  groupBy : ρ
  having : ρ
  orderBy : ρ
  limitClause : ρ
  limit : Context → Node ρ → Limit
  lock : ρ
  -- Tables
  tableSource : ρ
  namedTable : ρ
  subqueryTable : ρ
  nestedTables : ρ
  tableList : ρ
  namedTable? : Context → Node ρ → Option NamedTable
  alias? : Context → Node ρ → Option String
  isJoin : ρ → Bool
  /-- The kinds of what can be joined. -/
  isJoinedItem : ρ → Bool
  joinKind? : Node ρ → Option JoinKind
  joinCondition : ρ
  nameList : ρ
  name : ρ
  -- Expressions
  isSelect : ρ → Bool
  isExpression : ρ → Bool
  isPredicate : ρ → Bool
  /-- The connective of an expression that has one. -/
  connective? : Context → Node ρ → Option LogicalOperator
  predicateExpression : ρ
  comparison : ρ
  comparisonOperator : ρ
  among : ρ
  inList : ρ
  atomPredicate : ρ
  /-- The operand of a predicate that is nothing else. -/
  atom? : Node ρ → Option (Node ρ)
  atom : Context → Node ρ → Atom

/--
The readers for what can contain itself.
-/
structure Reader (ρ : Type) where
  select? : Node ρ → Option Select
  union? : Node ρ → Option UnionSelect
  group? : Node ρ → Option QueryGroup
  tables : Node ρ → TableSources
  expression : Node ρ → Expr
  predicate : Node ρ → Predicate

namespace Reading

variable {ρ : Type} [DecidableEq ρ] [Production ρ] (r : Roles ρ) (c : Context)

def names (n : Node ρ) : List String :=
  (n.childrenOf r.name).map fun m => (c.identifier m).value

def unstructured? (n : Node ρ) (rule : ρ) : Option Unstructured :=
  c.unstructured <$> n.child? rule

def limit? (n : Node ρ) : Option Limit :=
  r.limit c <$> n.child? r.limitClause

def selectElements (n : Node ρ) : SelectElements where
  excerpt := c.excerptOf n
  star := n.hasToken .star
  elements := n.childNodes.filterMap (r.element? c)

section

variable (nested : Reader ρ)

def condition? (n : Node ρ) : Option Expr :=
  nested.expression <$> n.findChild? r.isExpression

-- Selects

def specification? (n : Node ρ) : Option QuerySpecification := do
  let elements ← n.child? r.elements
  return {
    excerpt := c.excerptOf n
    distinct := r.isDistinct n
    elements := selectElements r c elements
    tables := nested.tables <$> r.tables? n
    condition := r.rowCondition? n >>= condition? r nested
    groupBy := unstructured? c n r.groupBy
    having := n.child? r.having >>= condition? r nested
    orderBy := unstructured? c n r.orderBy
    limit := limit? r c n }

def operand (n : Node ρ) : QueryOperand :=
  let operand? : Option QueryOperand :=
    if !r.isOperand n.rule then none
    else if n.rule = r.specification then .specification <$> specification? r c nested n
    else if n.rule = r.group then .group <$> nested.group? n
    else .union <$> nested.union? n
  operand?.getD (.unstructured (c.unstructured n))

/--
A part of a union. Its operator reaches from its first token to its last.
-/
def unionPart? (n : Node ρ) : Option UnionPart := do
  let first ← n.tokens.head?
  let last ← n.tokens.getLast?
  let operand ← r.partOperand? n
  return {
    excerpt := c.excerptOf n
    operator := (first.span.merge last.span).slice c.source
    operand := Reading.operand r c nested operand }

def unionSelect? (n : Node ρ) : Option UnionSelect := do
  let first ← n.findChild? r.isOperand
  return {
    excerpt := c.excerptOf n
    first := operand r c nested first
    parts := (n.childrenOf r.unionPart).filterMap (unionPart? r c nested)
    orderBy := unstructured? c n r.orderBy
    limit := limit? r c n }

def queryBody? (n : Node ρ) : Option QueryBody :=
  if n.rule = r.specification then .specification <$> specification? r c nested n
  else if n.rule = r.unionSelect then .union <$> nested.union? n
  else if n.rule = r.group then .nested <$> nested.group? n
  else none

def queryGroup? (n : Node ρ) : Option QueryGroup := do
  let body ← n.firstChild? >>= queryBody? r c nested
  return ⟨c.excerptOf n, body⟩

def simpleSelect? (n : Node ρ) : Option SimpleSelect := do
  let query ← n.child? r.specification >>= specification? r c nested
  return ⟨c.excerptOf n, query, unstructured? c n r.lock⟩

def parenthesisSelect? (n : Node ρ) : Option ParenthesisSelect := do
  let group ← n.child? r.group >>= nested.group?
  return ⟨c.excerptOf n, group, unstructured? c n r.orderBy, limit? r c n⟩

def selectStatement? (n : Node ρ) : Option Select :=
  if n.rule = r.simpleSelect then .simple <$> simpleSelect? r c nested n
  else if n.rule = r.unionSelect then .union <$> unionSelect? r c nested n
  else if n.rule = r.parenthesisSelect then .parenthesis <$> parenthesisSelect? r c nested n
  else none

-- Tables

def subqueryTable? (n : Node ρ) : Option SubqueryTable := do
  let select ← n.findChild? r.isSelect >>= nested.select?
  return {
    excerpt := c.excerptOf n
    lateral := n.hasKeyword .LATERAL
    select
    asName := r.alias? c n }

def tableItem (n : Node ρ) : TableItem :=
  let item? : Option TableItem :=
    if n.rule = r.namedTable then .named <$> r.namedTable? c n
    else if n.rule = r.subqueryTable then .subquery <$> subqueryTable? r c nested n
    else if n.rule = r.nestedTables then (.nested <| nested.tables ·) <$> n.child? r.tableList
    else none
  item?.getD (.unstructured (c.unstructured n))

def joinCondition? (n : Node ρ) : Option JoinCondition :=
  if n.hasKeyword .ON then
    .on (c.excerptOf n) <$> condition? r nested n
  else
    (.sharing (c.excerptOf n) <| names r c ·) <$> n.child? r.nameList

def join? (n : Node ρ) : Option Join := do
  let item ← n.findChild? r.isJoinedItem
  let kind ← r.joinKind? n
  return kind.join (c.excerptOf n) (tableItem r c nested item)
    (n.child? r.joinCondition >>= joinCondition? r c nested)

def joinedTable? (n : Node ρ) : Option JoinedTable := do
  let item ← n.firstChild?
  return {
    excerpt := c.excerptOf n
    item := tableItem r c nested item
    joins := (n.childrenThat r.isJoin).filterMap (join? r c nested) }

def tableSource (n : Node ρ) : TableSource :=
  match if n.rule = r.tableSource then joinedTable? r c nested n else none with
  | some source => .base source
  | none => .unstructured (c.unstructured n)

def tableSources (n : Node ρ) : TableSources where
  excerpt := c.excerptOf n
  sources := n.childNodes.map (tableSource r c nested)

-- Expressions

def inSource? (n : Node ρ) : Option InSource :=
  match n.findChild? r.isSelect with
  | some select => .select <$> nested.select? select
  | none => do
    let list ← n.child? r.inList
    return .list (list.childNodes.map nested.expression)

def among? (n : Node ρ) : Option Predicate := do
  let subject ← n.findChild? r.isPredicate
  let source ← inSource? r nested n
  return .among (c.excerptOf n) (nested.predicate subject) (n.hasKeyword .NOT) source

def comparison? (n : Node ρ) : Option Predicate :=
  match n.childrenThat r.isPredicate with
  | left :: right :: _ => do
    let operator ← n.child? r.comparisonOperator
    return .comparison (c.excerptOf n) (nested.predicate left) (nested.predicate right)
      (c.text operator)
  | _ => none

def predicate (n : Node ρ) : Predicate :=
  let predicate? : Option Predicate :=
    if n.rule = r.comparison then comparison? r c nested n
    else if n.rule = r.among then among? r c nested n
    else if n.rule = r.atomPredicate then (.atom (c.excerptOf n) <| r.atom c ·) <$> r.atom? n
    else none
  predicate?.getD (.unstructured (c.unstructured n))

def expression (n : Node ρ) : Expr :=
  match r.connective? c n with
  | some operator =>
    .logical (c.excerptOf n) operator ((n.childrenThat r.isExpression).map nested.expression)
  | none =>
    match if n.rule = r.predicateExpression then n.firstChild? else none with
    | some inner => .predicate (c.excerptOf n) (nested.predicate inner)
    | none => .unstructured (c.unstructured n)

end

end Reading

namespace Reader

variable {ρ : Type} [DecidableEq ρ] [Production ρ] (r : Roles ρ) (c : Context)

def attempt (nested : Reader ρ) : Reader ρ where
  select? := Reading.selectStatement? r c nested
  union? := Reading.unionSelect? r c nested
  group? := Reading.queryGroup? r c nested
  tables := Reading.tableSources r c nested
  expression := Reading.expression r c nested
  predicate := Reading.predicate r c nested

omit [DecidableEq ρ] in
def blind : Reader ρ where
  select? _ := none
  union? _ := none
  group? _ := none
  tables n := ⟨c.excerptOf n, []⟩
  expression n := .unstructured (c.unstructured n)
  predicate n := .unstructured (c.unstructured n)

def ofDepth (depth : Nat) : Reader ρ :=
  match depth with
  | 0 => blind c
  | depth + 1 => attempt r c (ofDepth depth)

/--
The readers for a tree and all that is in it: no reader goes deeper than the tree is high.
-/
def ofTree (root : Node ρ) : Reader ρ :=
  ofDepth r c root.height

end Reader

end SqlScript
