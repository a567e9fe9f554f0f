import Mathlib.Data.Option.Basic
import SqlScript.Proofs.Mirror.Script

/-!
Assignments of PostgreSQL updates. A `SET` list is read clause by clause and target by target: each
target gets one assignment, with the value that was written for it.
-/

namespace SqlScript

namespace Tree

variable {ρ : Type}

inductive Listed : List (Element ρ) → List (Node ρ) → Prop
  | single (n : Node ρ) : Listed [.node n] [n]
  | cons {comma : Token} {es : List (Element ρ)} {ns : List (Node ρ)} (n : Node ρ) :
    comma.kind = .comma → Listed es ns → Listed (.node n :: .token comma :: es) (n :: ns)

namespace Listed

variable {es : List (Element ρ)} {ns : List (Node ρ)}

theorem nodesOf_eq (h : Listed es ns) : nodesOf es = ns := by
  induction h with
  | single n => rfl
  | @cons comma es ns n _ _ ih =>
    have hcons : Element.node n :: .token comma :: es = [.node n] ++ ([.token comma] ++ es) := rfl
    rw [hcons, nodesOf_append, nodesOf_append, ih]
    rfl

theorem ne_nil (h : Listed es ns) : ns ≠ [] := by
  cases h <;> exact List.cons_ne_nil _ _

theorem of_commas {rules : List ρ} {p : Node ρ → Bool}
    (h : (Shape.commas (.node rules p)).Matches es) :
    ∃ ns, Listed es ns ∧ ∀ n ∈ ns, n.rule ∈ rules := by
  obtain ⟨_, _, rfl, ⟨first, rfl, hfirst, -⟩, parts, rfl, hparts⟩ := h
  induction parts generalizing first with
  | nil => exact ⟨[first], .single first, by simpa using hfirst⟩
  | cons part parts ih =>
    obtain ⟨hpart, hrest⟩ := List.forall_mem_cons.1 hparts
    obtain ⟨_, _, rfl, ⟨comma, rfl, hcomma⟩, next, rfl, hnext, -⟩ := hpart
    obtain ⟨ns, hlisted, hrules⟩ := ih next hnext hrest
    have hkind := TokenKind.eq_comma_of_alike hcomma
    exact ⟨first :: ns, .cons first hkind hlisted, List.forall_mem_cons.2 ⟨hfirst, hrules⟩⟩

end Listed

theorem nodesOf_map_node (ns : List (Node ρ)) : nodesOf (ns.map .node) = ns := by
  unfold nodesOf
  rw [List.filterMap_map]
  exact List.filterMap_some

end Tree

namespace Postgres

open SqlScript.Tree (Node Element Listed nodesOf)

def IsSetList (update : Node Rule) (clauses : List (Node Rule)) : Prop :=
  ∃ (word set : Token) (table : Node Rule) (es : List (Element Rule)) (rest : List (Node Rule)),
    update.rule = .updateStmt ∧ word.isKeyword .UPDATE ∧ set.isKeyword .SET ∧ Listed es clauses ∧
    (∀ m ∈ rest, m.rule ∈ [.fromClause, .whereClause, .returningClause]) ∧
    update.children = .token word :: .node table :: .token set :: (es ++ rest.map .node)

def IsRow (value : Node Rule) (row : List (Node Rule)) : Prop :=
  ∃ (primary operand : Node Rule) (opener closer : Token) (es : List (Element Rule)),
    value.rule = .aExprPredicate ∧ value.children = [.node primary] ∧
    primary.rule = .aExprPrimary ∧ primary.children = [.node operand] ∧
    operand.rule = .cExprNested ∧ opener.kind = .leftParen ∧ closer.kind = .rightParen ∧
    Listed es row ∧ operand.children = .token opener :: (es ++ [.token closer])

def IsMultiple (clause : Node Rule) (targets : List (Node Rule)) (value : Node Rule) : Prop :=
  ∃ (opener closer sign : Token) (es : List (Element Rule)),
    clause.rule = .multiSetClause ∧ opener.kind = .leftParen ∧ closer.kind = .rightParen ∧
    sign.kind = .eq ∧ Listed es targets ∧ (∀ m ∈ targets, m.rule = .setTarget) ∧
    clause.children = .token opener :: (es ++ [.token closer, .token sign, .node value])

/--
The clause has these targets, each with its value. A list in parentheses of as many expressions as
there are targets gives each its own, anything else is the value of all.
-/
inductive Assigns : Node Rule → List (Node Rule × Node Rule) → Prop
  | single {clause target value : Node Rule} {sign : Token} :
    clause.rule = .setClause → clause.children = [.node target, .token sign, .node value] →
    target.rule = .setTarget → sign.kind = .eq → Assigns clause [(target, value)]
  | row {clause value : Node Rule} {targets row : List (Node Rule)} :
    IsMultiple clause targets value → IsRow value row → row.length = targets.length →
    Assigns clause (targets.zip row)
  | whole {clause value : Node Rule} {targets : List (Node Rule)} :
    IsMultiple clause targets value → (∀ row, IsRow value row → row.length ≠ targets.length) →
    Assigns clause (targets.map (·, value))

/--
The name tokens of a target, in front of its first subscript.
-/
def targetNames (target : Node Rule) : List Token :=
  (target.tokens.takeWhile (·.kind != .leftBracket)).filter (·.isNamePart)

section

variable (c : Context) (reader : Reader Rule)

def IsColumn (target : Node Rule) (column : ColumnName) : Prop :=
  ∃ first last, (targetNames target).head? = some first ∧
    (targetNames target).getLast? = some last ∧
    column = DottedName.toColumnName
      ⟨c.excerpt (first.span.merge last.span), (targetNames target).map c.tokenText⟩

structure IsAssignment (clause : Node Rule) (a : Assignment) (pair : Node Rule × Node Rule) :
    Prop where
  excerpt : a.excerpt = c.excerptOf clause
  column : IsColumn c pair.1 a.column
  value : a.value = reader.expression pair.2

/--
There is one assignment for each target of the clause, in the order of the targets.
-/
def IsAssigned (clause : Node Rule) (group : List Assignment) : Prop :=
  ∃ pairs, Assigns clause pairs ∧ List.Forall₂ (IsAssignment c reader clause) group pairs

end

variable {c : Context} {reader : Reader Rule} {n m value : Node Rule}

namespace Read

theorem exists_column (hn : n.Formed) (hrule : n.rule = .setTarget) :
    ∃ column, targetColumn? c n = some column ∧ IsColumn c n column := by
  have hnames : (n.tokens.takeWhile (·.kind != .leftBracket)).filter (·.kind != .dot) =
      targetNames n := by
    apply List.filter_congr
    intro t ht
    have hdotted := isDotted_of_target hn hrule t ht
    by_cases hdot : t.kind = .dot
    · simp [Token.isNamePart, hdot]
    · simp [Token.isNamePart_of_isDotted hdotted hdot, hdot]
  have hdots : (targetNames n).filter (·.kind != .dot) = targetNames n := by
    rw [← hnames, List.filter_filter]
    simp
  obtain ⟨column, hcolumn⟩ := exists_targetColumn (c := c) hn hrule
  refine ⟨column, hcolumn, ?_⟩
  obtain ⟨name, hname, rfl⟩ := Option.map_eq_some_iff.1 hcolumn
  unfold nameOfTokens? at hname
  rw [hnames] at hname
  obtain ⟨first, hfirst, hname⟩ := Option.bind_eq_some_iff.1 hname
  obtain ⟨last, hlast, hname⟩ := Option.bind_eq_some_iff.1 hname
  cases hname
  refine ⟨first, last, hfirst, hlast, ?_⟩
  rw [Context.nameOfTokens, hdots]

theorem assignment_is (c : Context) (reader : Reader Rule) (clause : Node Rule)
    {target : Node Rule} (hn : target.Formed) (hrule : target.rule = .setTarget)
    (value : Node Rule) :
    ∃ column, targetColumn? c target = some column ∧
      IsAssignment c reader clause ⟨c.excerptOf clause, column, reader.expression value⟩
        (target, value) := by
  obtain ⟨column, hcolumn, his⟩ := exists_column hn hrule
  exact ⟨column, hcolumn, rfl, his, rfl⟩

theorem singleAssignment?_assigned (hn : n.Formed) (hrule : n.rule = .setClause) :
    IsAssigned c reader n (singleAssignment? c reader n).toList := by
  have h := hn.matches_children
  rw [hrule] at h
  obtain ⟨_, _, hchildren, ⟨target, rfl, htarget, -⟩, _, _, rfl, ⟨sign, rfl, hsign⟩, value, rfl,
    hvalue, -⟩ := h
  have hnodes : n.childNodes = [target, value] := by
    rw [Node.childNodes_eq, hchildren]
    rfl
  have htarget := List.mem_singleton.1 htarget
  obtain ⟨column, hcolumn, his⟩ :=
    assignment_is c reader n (hn.child (hnodes ▸ List.mem_cons_self)) htarget value
  have hread : singleAssignment? c reader n =
      some ⟨c.excerptOf n, column, reader.expression value⟩ := by
    have hfirst : n.child? .setTarget = some target := by
      rw [Node.child?, Node.findChild?, hnodes, List.find?_cons_of_pos (by simp [htarget])]
    have hassigned : ∀ rule ∈ assigned, rule.isExpressionForm || rule == .setToDefault := by decide
    have hsecond : n.findChild? (fun rule => rule.isExpressionForm || rule == .setToDefault) =
        some value := by
      rw [Node.findChild?, hnodes, List.find?_cons_of_neg (by rw [htarget]; decide)]
      exact List.find?_cons_of_pos (hassigned _ hvalue)
    refine Option.bind_eq_some_iff.2 ⟨target, hfirst, ?_⟩
    refine Option.bind_eq_some_iff.2 ⟨column, hcolumn, ?_⟩
    exact Option.bind_eq_some_iff.2 ⟨value, hsecond, rfl⟩
  rw [hread]
  exact ⟨_, .single hrule hchildren htarget (TokenKind.eq_eq_of_alike hsign), .cons his .nil⟩

def rowOf (value : Node Rule) : List (Node Rule) :=
  match bareOperand? value with
  | some operand =>
    if operand.rule = .cExprNested then operand.childrenThat Rule.isExpressionForm else []
  | none => []

theorem rowOf_eq (hvalue : value.Formed) {row : List (Node Rule)} (h : IsRow value row) :
    rowOf value = row := by
  obtain ⟨primary, operand, opener, closer, es, hrule, hchildren, hprimary, hchildren', hoperand,
    -, -, hlisted, hrow⟩ := h
  have hfirst : value.firstChild? = some primary := by
    rw [Node.firstChild?, Node.childNodes_eq, hchildren]
    rfl
  have hfirst' : primary.firstChild? = some operand := by
    rw [Node.firstChild?, Node.childNodes_eq, hchildren']
    rfl
  have hbare : bareOperand? value = some operand := by
    simp [bareOperand?, hrule, hfirst, hprimary, hfirst']
  have hnodes : operand.childNodes = row := by
    have hsplit : operand.children = [.token opener] ++ (es ++ [.token closer]) := hrow
    rw [Node.childNodes_eq, hsplit, Tree.nodesOf_append, Tree.nodesOf_append, hlisted.nodesOf_eq]
    simp
  have hrules : ∀ rule ∈ (shape .cExprNested).rules, rule.isExpressionForm := by decide
  have hformed : operand.Formed :=
    (hvalue.child (Node.mem_childNodes_of_firstChild? hfirst)).child
      (Node.mem_childNodes_of_firstChild? hfirst')
  unfold rowOf
  rw [hbare]
  dsimp only
  rw [if_pos hoperand, ← hnodes]
  apply List.filter_eq_self.2
  intro m hm
  exact hrules _ (hformed.rule_mem_of_rule hoperand hm)

theorem children_of_firstChild? (hn : n.Formed) {rules : List Rule} {p : Node Rule → Bool}
    (hshape : shape n.rule = .node rules p) (h : n.firstChild? = some m) :
    n.children = [.node m] := by
  have hmatches : (shape n.rule).Matches n.children := hn.matches_children
  rw [hshape] at hmatches
  obtain ⟨k, hchildren, -, -⟩ := hmatches
  rw [Node.firstChild?, Node.childNodes_eq, hchildren] at h
  cases h
  exact hchildren

theorem isRow_rowOf (hvalue : value.Formed) (h : rowOf value ≠ []) : IsRow value (rowOf value) := by
  have hrow : ∃ operand, bareOperand? value = some operand ∧ operand.rule = .cExprNested := by
    unfold rowOf at h
    split at h
    · rename_i operand hbare
      by_cases hoperand : operand.rule = .cExprNested
      · exact ⟨operand, hbare, hoperand⟩
      · rw [if_neg hoperand] at h
        contradiction
    · contradiction
  obtain ⟨operand, hbare, hoperand⟩ := hrow
  obtain ⟨_, hrule, hbare⟩ := Option.bind_eq_some_iff.1 hbare
  obtain ⟨primary, hfirst, hbare⟩ := Option.bind_eq_some_iff.1 hbare
  obtain ⟨_, hprimary, hfirst'⟩ := Option.bind_eq_some_iff.1 hbare
  have hrule : value.rule = .aExprPredicate := (Option.guard_eq_some' _).1 hrule
  have hprimary : primary.rule = .aExprPrimary := (Option.guard_eq_some' _).1 hprimary
  have hprimaryFormed := hvalue.child (Node.mem_childNodes_of_firstChild? hfirst)
  have hformed := hprimaryFormed.child (Node.mem_childNodes_of_firstChild? hfirst')
  have hchildren := children_of_firstChild? hvalue (by rw [hrule]; rfl) hfirst
  have hchildren' := children_of_firstChild? hprimaryFormed (by rw [hprimary]; rfl) hfirst'
  have hparens := hformed.matches_children
  rw [hoperand] at hparens
  obtain ⟨_, _, hsplit, ⟨_, es, rfl, ⟨opener, rfl, hopener⟩, hlist⟩, closer, rfl, hcloser⟩ :=
    hparens
  obtain ⟨row, hlisted, -⟩ := Listed.of_commas hlist
  have hrow : IsRow value row :=
    ⟨primary, operand, opener, closer, es, hrule, hchildren, hprimary, hchildren', hoperand,
      TokenKind.eq_leftParen_of_alike hopener, TokenKind.eq_rightParen_of_alike hcloser, hlisted,
      by simp [hsplit]⟩
  rwa [rowOf_eq hvalue hrow]

theorem exists_multiple (hn : n.Formed) (hrule : n.rule = .multiSetClause) :
    ∃ targets value, IsMultiple n targets value ∧ targets ≠ [] ∧ n.childNodes = targets ++ [value] ∧
      (∀ m ∈ targets, m.rule = .setTarget) ∧ value.rule ∈ expressions := by
  have h := hn.matches_children
  rw [hrule] at h
  obtain ⟨_, _, hchildren, ⟨_, _, rfl, ⟨_, es, rfl, ⟨opener, rfl, hopener⟩, hlist⟩, closer, rfl,
    hcloser⟩, _, _, rfl, ⟨sign, rfl, hsign⟩, value, rfl, hvalue, -⟩ := h
  obtain ⟨targets, hlisted, htargets⟩ := Listed.of_commas hlist
  have htargets : ∀ m ∈ targets, m.rule = .setTarget := by simpa using htargets
  refine ⟨targets, value, ⟨opener, closer, sign, es, hrule, TokenKind.eq_leftParen_of_alike hopener,
    TokenKind.eq_rightParen_of_alike hcloser, TokenKind.eq_eq_of_alike hsign, hlisted, htargets,
    by simp [hchildren]⟩, hlisted.ne_nil, ?_, htargets, hvalue⟩
  rw [Node.childNodes_eq, hchildren]
  simp only [Tree.nodesOf_append, hlisted.nodesOf_eq]
  simp

theorem assigns_pairedTargets (hn : n.Formed) (hrule : n.rule = .multiSetClause) :
    Assigns n (pairedTargets n) := by
  obtain ⟨targets, value, hmultiple, hsome, hnodes, htargets, hvalue⟩ := exists_multiple hn hrule
  have hexpressions : ∀ rule ∈ expressions, rule.isExpressionForm ∧ rule ≠ .setTarget := by decide
  obtain ⟨hexpression, hother⟩ := hexpressions _ hvalue
  have hchosen : n.childrenOf .setTarget = targets := by
    rw [Node.childrenOf, Node.childrenThat, hnodes, List.filter_append, List.filter_eq_self.2,
      List.filter_eq_nil_iff.2, List.append_nil]
    · simpa using hother
    · simpa using htargets
  have hwhole : n.findChild? Rule.isExpressionForm = some value := by
    rw [Node.findChild?, hnodes, List.find?_append, List.find?_eq_none.2]
    · simpa using hexpression
    · intro m hm
      rw [htargets m hm]
      decide
  have hformed : value.Formed := hn.child (by simp [hnodes])
  have hread : pairedTargets n = if (rowOf value).length = targets.length then
      targets.zip (rowOf value) else targets.map (·, value) := by
    unfold pairedTargets
    rw [hwhole, hchosen]
    rfl
  rw [hread]
  split
  · rename_i hlength
    -- As many items as targets are some, so they come from a row.
    have hitems : rowOf value ≠ [] := by
      rw [← List.length_pos_iff, hlength, List.length_pos_iff]
      exact hsome
    exact .row hmultiple (isRow_rowOf hformed hitems) hlength
  · rename_i hlength
    refine .whole hmultiple fun row hrow => ?_
    rwa [← rowOf_eq hformed hrow]

theorem multiAssignments_assigned (hn : n.Formed) (hrule : n.rule = .multiSetClause) :
    IsAssigned c reader n (multiAssignments c reader n) := by
  refine ⟨_, assigns_pairedTargets hn hrule, forall₂_filterMap fun pair hpair => ?_⟩
  have htarget := (cases_of_mem_pairedTargets hpair).1
  obtain ⟨column, hcolumn, his⟩ := assignment_is c reader n
    (hn.child (Node.mem_childNodes_of_mem_childrenOf htarget))
    (eq_of_beq (Node.rule_of_mem_childrenThat htarget)) pair.2
  exact ⟨_, Option.bind_eq_some_iff.2 ⟨column, hcolumn, rfl⟩, his⟩

theorem nodes_of_opt {rule : Rule} {es : List (Element Rule)}
    (h : (Shape.opt (.one rule)).Matches es) :
    ∃ ms : List (Node Rule), es = ms.map .node ∧ ∀ m ∈ ms, m.rule = rule := by
  obtain rfl | ⟨m, rfl, hm, -⟩ := h
  · exact ⟨[], rfl, nofun⟩
  · exact ⟨[m], rfl, by simpa using hm⟩

theorem exists_setList (hn : n.Formed) (hrule : n.rule = .updateStmt) :
    ∃ (table : Node Rule) (clauses rest : List (Node Rule)), IsSetList n clauses ∧
      n.childNodes = table :: (clauses ++ rest) ∧
      (∀ m ∈ clauses, m.rule = .setClause ∨ m.rule = .multiSetClause) ∧
      ∀ m ∈ table :: rest, m.rule ≠ .setClause ∧ m.rule ≠ .multiSetClause := by
  have h := hn.matches_children
  rw [hrule] at h
  obtain ⟨_, _, hchildren, ⟨word, rfl, hword⟩, _, _, rfl, ⟨table, rfl, htable, -⟩, _, _, rfl,
    ⟨set, rfl, hset⟩, es, _, rfl, hlist, _, _, rfl, hfrom, _, _, rfl, hwhere, hreturning⟩ := h
  obtain ⟨clauses, hlisted, hclauses⟩ := Listed.of_commas hlist
  obtain ⟨froms, rfl, hfrom⟩ := nodes_of_opt hfrom
  obtain ⟨wheres, rfl, hwhere⟩ := nodes_of_opt hwhere
  obtain ⟨returnings, rfl, hreturning⟩ := nodes_of_opt hreturning
  have hrest : ∀ m ∈ froms ++ (wheres ++ returnings),
      m.rule ∈ [.fromClause, .whereClause, .returningClause] := by
    grind
  have hother : ∀ rule ∈ [.relationRef, .fromClause, .whereClause, .returningClause],
      rule ≠ Rule.setClause ∧ rule ≠ .multiSetClause := by decide
  refine ⟨table, clauses, froms ++ (wheres ++ returnings),
    ⟨word, set, table, es, _, hrule, hword, hset, hlisted, hrest, ?_⟩, ?_, ?_, ?_⟩
  · simp [hchildren]
  · rw [Node.childNodes_eq, hchildren]
    simp only [Tree.nodesOf_append, hlisted.nodesOf_eq, Tree.nodesOf_map_node]
    simp
  · simpa using hclauses
  · intro m hm
    obtain rfl | hm := List.mem_cons.1 hm
    · exact hother _ (by simp [List.mem_singleton.1 htable])
    · exact hother _ (List.mem_cons_of_mem _ (hrest m hm))

def clauseAssignments (c : Context) (reader : Reader Rule) (n : Node Rule) : List Assignment :=
  match n.rule with
  | .setClause => (singleAssignment? c reader n).toList
  | .multiSetClause => multiAssignments c reader n
  | _ => []

theorem exists_groups (hn : n.Formed) (hrule : n.rule = .updateStmt) :
    ∃ clauses groups, IsSetList n clauses ∧ List.Forall₂ (IsAssigned c reader) clauses groups ∧
      assignmentsOf c reader n = groups.flatten := by
  obtain ⟨table, clauses, rest, hlist, hnodes, hclauses, hrest⟩ := exists_setList hn hrule
  have hclause : ∀ m ∈ clauses, IsAssigned c reader m (clauseAssignments c reader m) := by
    intro m hm
    have hformed := hn.child (m := m) (by simp [hnodes, hm])
    unfold clauseAssignments
    obtain h | h := hclauses m hm
    · rw [h]
      exact singleAssignment?_assigned hformed h
    · rw [h]
      exact multiAssignments_assigned hformed h
  have hnone : ∀ m ∈ table :: rest, clauseAssignments c reader m = [] := by
    intro m hm
    obtain ⟨hsingle, hmulti⟩ := hrest m hm
    unfold clauseAssignments
    split
    · rename_i h
      exact absurd h hsingle
    · rename_i h
      exact absurd h hmulti
    · rfl
  refine ⟨clauses, clauses.map (clauseAssignments c reader), hlist, ?_, ?_⟩
  · exact List.forall₂_map_right_iff.2 (List.forall₂_same.2 hclause)
  · have hread : assignmentsOf c reader n = n.childNodes.flatMap (clauseAssignments c reader) := rfl
    obtain ⟨htable, hrest⟩ := List.forall_mem_cons.1 hnone
    rw [hread, hnodes, List.flatMap_cons, htable, List.nil_append, List.flatMap_append,
      List.flatMap_eq_nil_iff.2 hrest, List.append_nil, List.flatMap_def]

theorem update?_assigned (hn : n.Formed) (hrule : n.rule = .updateStmt) {u : Update}
    (h : update? c reader n = some u) :
    ∃ clauses groups, IsSetList n clauses ∧ List.Forall₂ (IsAssigned c reader) clauses groups ∧
      u.assignments = groups.flatten := by
  obtain ⟨tables, -, h⟩ := Option.bind_eq_some_iff.1 h
  cases h
  exact exists_groups hn hrule

theorem exists_update (hn : n.Formed) (hrule : n.rule = .emptyStmt ∨ n.rule = .stmt)
    (h : n.leaves.head?.any (·.isKeyword .UPDATE)) :
    ∃ update, n.rule = .stmt ∧ n.children = [.node update] ∧ update.rule = .updateStmt := by
  obtain ⟨word, hfirst, hword⟩ := (Option.any_eq_true _ _).1 h
  have hkind := Token.kind_of_isKeyword hword
  have hmatches := hn.matches_children
  obtain hrule | hrule := hrule
  · rw [hrule] at hmatches
    obtain ⟨t, hchildren, ht⟩ := hmatches
    rw [Node.leaves_eq, hchildren] at hfirst
    cases hfirst
    rw [TokenKind.eq_semicolon_of_alike ht] at hkind
    contradiction
  · rw [hrule] at hmatches
    obtain ⟨m, hchildren, -, hannounced⟩ := hmatches
    rw [Node.leaves_eq, hchildren, Tree.leaves_node, ← Node.leaves_eq] at hfirst
    rw [isAnnounced, hfirst, Option.bind_some, manipulated?, hkind] at hannounced
    exact ⟨m, hrule, hchildren, (eq_of_beq hannounced).symm⟩

theorem statementOf_update {update : Node Rule} (hrule : n.rule = .stmt)
    (hchildren : n.children = [.node update]) (hupdate : update.rule = .updateStmt) {u : Update}
    (h : update? c reader update = some u) : statementOf c reader n = .update u := by
  have hfirst : n.firstChild? = some update := by
    rw [Node.firstChild?, Node.childNodes_eq, hchildren]
    rfl
  unfold statementOf structured?
  simp only [hrule, hfirst, hupdate, h]
  rfl

end Read

/--
The statement is the update that its production makes, with the assignments of its list.
-/
def IsUpdated (c : Context) (reader : Reader Rule) (statement : Statement) (n : Node Rule) : Prop :=
  ∃ update u clauses groups, n.children = [.node update] ∧ statement = .update u ∧
    IsSetList update clauses ∧ List.Forall₂ (IsAssigned c reader) clauses groups ∧
    u.assignments = groups.flatten

/--
A statement that begins with `UPDATE` assigns to every target of its list exactly once, in the order
of the targets: to the column that stands in front of the first subscript, and the value of the
clause, or the target's own in a row of as many expressions as there are targets.
-/
theorem parse_assignments {source : String} {options : Options} {statements : List Statement}
    (h : parse .postgreSql source options = .ok statements) :
    ∃ tree, parseTree source options = .ok tree ∧
      List.Forall₂ (fun statement n => n.leaves.head?.any (·.isKeyword .UPDATE) →
          IsUpdated (.ofString source options.baseline .postgreSql)
            (.ofTree Read.roles (.ofString source options.baseline .postgreSql) tree.root)
            statement n)
        statements (slots tree.root) := by
  obtain ⟨tree, htree, rfl⟩ := exists_of_map_eq_ok h
  have hcuts := Context.cuts_ofString source options.baseline .postgreSql
  have hreader := Read.images_values hcuts tree.root.height
  refine ⟨tree, htree, ?_⟩
  rw [statementsOf_eq_slots, List.forall₂_map_left_iff]
  refine List.forall₂_same.2 fun n hn hword => ?_
  obtain ⟨hready, hrule⟩ := ready_of_mem_slots (genuine_of_parseTree htree) hn
  obtain ⟨update, hstmt, hchildren, hupdate⟩ := Read.exists_update hready.formed hrule hword
  have hbelow := hready.below (m := update) (by simp [Node.childNodes_eq, hchildren])
  obtain ⟨u, hu, -⟩ := Read.update?_mirrors hreader hbelow hupdate
  obtain ⟨clauses, groups, hlist, hgroups, hassignments⟩ :=
    Read.update?_assigned hbelow.formed hupdate hu
  exact ⟨update, u, clauses, groups, hchildren, Read.statementOf_update hstmt hchildren hupdate hu,
    hlist, hgroups, hassignments⟩

theorem parse_assignments_row :
    ∃ statement tree n,
      parse .postgreSql "UPDATE t SET a[1] = 1, (b, c) = (2, 3), (d, e) = ROW(4, 5)" {} =
        .ok [statement] ∧
      parseTree "UPDATE t SET a[1] = 1, (b, c) = (2, 3), (d, e) = ROW(4, 5)" {} = .ok tree ∧
      slots tree.root = [n] ∧ n.leaves.head?.any (·.isKeyword .UPDATE) ∧
      IsUpdated
        (.ofString "UPDATE t SET a[1] = 1, (b, c) = (2, 3), (d, e) = ROW(4, 5)" 0 .postgreSql)
        (.ofTree Read.roles
          (.ofString "UPDATE t SET a[1] = 1, (b, c) = (2, 3), (d, e) = ROW(4, 5)" 0 .postgreSql)
          tree.root)
        statement n := by
  obtain ⟨statements, hstatements, hone⟩ := exists_ok_of_any
    (x := parse .postgreSql "UPDATE t SET a[1] = 1, (b, c) = (2, 3), (d, e) = ROW(4, 5)" {})
    (p := fun statements => statements.length = 1) (by decide +kernel)
  obtain ⟨tree, htree, hword⟩ := exists_ok_of_any
    (x := parseTree "UPDATE t SET a[1] = 1, (b, c) = (2, 3), (d, e) = ROW(4, 5)" {})
    (p := fun tree => (slots tree.root).all (·.leaves.head?.any (·.isKeyword .UPDATE)))
    (by decide +kernel)
  obtain ⟨tree', htree', hupdated⟩ := parse_assignments hstatements
  obtain rfl : tree = tree' := Except.ok.inj (htree.symm.trans htree')
  obtain ⟨statement, rfl⟩ := List.length_eq_one_iff.1 (of_decide_eq_true hone)
  obtain ⟨n, hn⟩ := List.length_eq_one_iff.1 hupdated.length_eq.symm
  rw [hn] at hword hupdated
  have hword : n.leaves.head?.any (·.isKeyword .UPDATE) := by simpa using hword
  cases hupdated with
  | cons hfirst _ => exact ⟨statement, tree, n, hstatements, htree, hn, hword, hfirst hword⟩

end Postgres

end SqlScript
