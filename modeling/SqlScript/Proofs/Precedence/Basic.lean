import SqlScript.Proofs.Mirror.Basic
import SqlScript.Proofs.Shape.Chain
import SqlScript.Proofs.Shape.Slots

/-!
Operators that bind more strongly stand further inside. A connective joins operands on top of which
stands no connective that binds as weakly, and what stands to the right of a test binds more
strongly than the test.
-/

namespace SqlScript

open SqlScript.Tree (Node Element nodesOf)

variable {ρ : Type}

def LogicalOperator.rank : LogicalOperator → Nat
  | or => 0
  | xor => 1
  | and => 2

def Expr.operator? : Expr → Option LogicalOperator
  | logical _ operator _ => some operator
  | _ => none

def Predicate.isComparison : Predicate → Bool
  | comparison .. => true
  | _ => false

/--
The operators of a grammar and the productions that they make.
-/
structure Precedence (ρ : Type) where
  /-- The connective that a token stands for. -/
  denoted? : TokenKind → Option LogicalOperator
  isConnective : ρ → Bool
  /-- The productions that can have a `NOT` in front of their operand. -/
  isNegation : ρ → Bool
  between : ρ
  isPredicate : ρ → Bool
  /-- The production that is the sign of a comparison. -/
  comparisonOperator : ρ
  /-- The tests that can have an operand to their right. -/
  isInfix : ρ → Bool
  /-- How strongly a test binds. -/
  strength? : ρ → Option Nat

/--
The production joins the operands: between each two of them stands one token, which denotes the
operator.
-/
def Tree.Node.Joins (denoted? : TokenKind → Option LogicalOperator) (operator : LogicalOperator)
    (n : Node ρ) (operands : List (Node ρ)) : Prop :=
  ∃ first, ∃ signed : List (List (Element ρ) × Node ρ), signed ≠ [] ∧
    operands = first :: signed.map (·.2) ∧
    n.children = .node first :: signed.flatMap (fun p => p.1 ++ [.node p.2]) ∧
    ∀ p ∈ signed, ∃ t, Tree.leaves p.1 = [t] ∧ denoted? t.kind = some operator

/--
The production can stand to the right of a test: it is the sign of a comparison, or a predicate with
no test on top that binds as weakly.
-/
def Precedence.Right (P : Precedence ρ) (strength : Nat) (n : Node ρ) : Prop :=
  n.rule = P.comparisonOperator ∨
    P.isPredicate n.rule ∧ ∀ k, P.strength? n.rule = some k → strength < k

/--
The production keeps to the strengths of the operators: a `NOT` has no connective as its operand, an
`AND` belongs to its `BETWEEN`, and nothing to the right of a test binds as weakly.
-/
structure Tree.Node.Ordered [DecidableEq ρ] (P : Precedence ρ) (n : Node ρ) : Prop where
  negation : P.isNegation n.rule → ∀ m ∈ n.childNodes, !P.isConnective m.rule
  between : n.rule = P.between → (n.tokens.filter (·.isKeyword .AND)).length = 1
  rights : P.isInfix n.rule → ∃ strength left rights, P.strength? n.rule = some strength ∧
    n.childNodes = left :: rights ∧ ∀ m ∈ rights, P.Right strength m

/--
The part keeps to the strengths of the operators: a connective joins at least two expressions, all
with this connective between them and none with one on top that binds as weakly.
-/
def Part.Ordered (P : Precedence ρ) (c : Context) (root : Node ρ) : Part → Prop
  | .expr (.logical e operator operands) => 2 ≤ operands.length ∧
      (∀ x ∈ operands, ∀ inner, x.operator? = some inner → operator.rank < inner.rank) ∧
      ∃ n nodes, root.Contains n ∧ e = c.excerptOf n ∧ n.Joins P.denoted? operator nodes ∧
        operands.map (·.excerpt) = nodes.map c.excerptOf
  | .predicate (.comparison _ _ right _) => right.isComparison = false
  | _ => True

/--
A tree, and the statements that are read from it, keep to the strengths of the operators.
-/
structure Precedence.Governs [DecidableEq ρ] (P : Precedence ρ) (c : Context) (root : Node ρ)
    (statements : List Statement) : Prop where
  tree {n : Node ρ} : root.Contains n → n.Ordered P
  parts : ∀ s ∈ statements, ∀ p ∈ s.parts, p.Ordered P c root

theorem Tree.Node.Joins.length {denoted? : TokenKind → Option LogicalOperator}
    {operator : LogicalOperator} {n : Node ρ} {operands : List (Node ρ)}
    (h : n.Joins denoted? operator operands) : 2 ≤ operands.length := by
  obtain ⟨first, signed, hsigned, rfl, -⟩ := h
  have := List.length_pos_iff.2 hsigned
  simp
  omega

namespace Shape

def Guards (q : Node ρ → Prop) (f : Shape ρ) : Prop :=
  ∀ ⦃es⦄, f.Matches es → ∀ m ∈ nodesOf es, q m

namespace Guards

variable {q : Node ρ → Prop} {f g : Shape ρ}

theorem of_rules_eq_nil (h : f.rules = []) : f.Guards q := by
  intro es hes m hm
  have hrule := hes.rule_mem hm
  rw [h] at hrule
  contradiction

theorem append (hf : f.Guards q) (hg : g.Guards q) : (f ++ g).Guards q := by
  rintro _ ⟨xs, ys, rfl, hxs, hys⟩ m hm
  rw [Tree.nodesOf_append, List.mem_append] at hm
  exact hm.elim (hf hxs m) (hg hys m)

theorem or (hf : f.Guards q) (hg : g.Guards q) : (f ||| g).Guards q :=
  fun _ hes => hes.elim (hf ·) (hg ·)

theorem opt (hf : f.Guards q) : f.opt.Guards q :=
  or (of_rules_eq_nil rfl) hf

theorem one {rule : ρ} (h : ∀ m : Node ρ, m.rule = rule → q m) : (Shape.one rule).Guards q := by
  intro es hes m hm
  obtain ⟨n, rfl, hn⟩ := matches_one.1 hes
  obtain rfl : m = n := by simpa using hm
  exact h m hn

theorem strong [Bonds ρ] {rules : List ρ} {least : Nat}
    (h : ∀ m : Node ρ, m.rule ∈ rules → (∀ k, Bonds.bond? m = some k → least ≤ k) → q m) :
    (Shape.strong rules least).Guards q := by
  rintro _ ⟨n, rfl, hrule, hn⟩ m hm
  obtain rfl : m = n := by simpa using hm
  exact h m hrule fun k hk => of_decide_eq_true ((Option.all_eq_true _ _).1 hn k hk)

end Guards

def Counts (p : Token → Bool) (k : Nat) (f : Shape ρ) : Prop :=
  ∀ ⦃es⦄, f.Matches es → (es.filterMap Element.token?).countP p = k

namespace Counts

variable {p : Token → Bool} {j k : Nat} {f g : Shape ρ}

theorem append (hf : f.Counts p j) (hg : g.Counts p k) : (f ++ g).Counts p (j + k) := by
  rintro _ ⟨xs, ys, rfl, hxs, hys⟩
  rw [List.filterMap_append, List.countP_append, hf hxs, hg hys]

theorem opt (hf : f.Counts p 0) : f.opt.Counts p 0 := by
  rintro es (rfl | hes)
  · rfl
  · exact hf hes

theorem node (rules : List ρ) (q : Node ρ → Bool) : (Shape.node rules q).Counts p 0 := by
  rintro _ ⟨n, rfl, -⟩
  rfl

theorem token {q : Token → Bool} (h : ∀ t, q t → p t) : (Shape.token q : Shape ρ).Counts p 1 := by
  rintro _ ⟨t, rfl, ht⟩
  simp [Element.token?, h t ht]

theorem token_not {q : Token → Bool} (h : ∀ t, q t → p t = false) :
    (Shape.token q : Shape ρ).Counts p 0 := by
  rintro _ ⟨t, rfl, ht⟩
  simp [Element.token?, h t ht]

theorem word (word : Keyword) : (Shape.word word : Shape ρ).Counts (·.isKeyword word) 1 :=
  token fun _ h => h

theorem word_of_ne {word word' : Keyword} (h : word ≠ word') :
    (Shape.word word : Shape ρ).Counts (·.isKeyword word') 0 := by
  apply token_not
  intro t ht
  unfold Token.isKeyword at ht ⊢
  rw [eq_of_beq ht]
  exact beq_false_of_ne fun heq => h (Option.some.inj heq)

end Counts

end Shape

section

variable [Grammar ρ] {n : Node ρ} {p : ρ → Bool} {rule : ρ}

section

variable {P : Precedence ρ} {strength : Nat}

theorem Precedence.strong_right {rules : List ρ} (hrules : rules.all P.isPredicate)
    (hbond : ∀ (m : Node ρ) k, P.strength? m.rule = some k → Bonds.bond? m = some k) :
    (Shape.strong rules (strength + 1)).Guards (P.Right strength) :=
  .strong fun m hm hstrong =>
    .inr ⟨List.all_eq_true.1 hrules _ hm, fun k hk => hstrong k (hbond m k hk)⟩

omit [Grammar ρ] in
theorem Precedence.sign_right : (Shape.one P.comparisonOperator).Guards (P.Right strength) :=
  .one fun _ => .inl

theorem Precedence.exists_rights {f : Shape ρ} {rules : List ρ} (hn : n.Formed)
    (hrule : n.rule = rule) (hstrength : P.strength? rule = some strength)
    (hshape : (Grammar.shape rule).Within (.oneIn rules ++ f)) (hf : f.Guards (P.Right strength)) :
    ∃ strength left rights, P.strength? n.rule = some strength ∧ n.childNodes = left :: rights ∧
      ∀ m ∈ rights, P.Right strength m := by
  subst hrule
  obtain ⟨_, ys, hchildren, ⟨left, rfl, -⟩, hys⟩ := hshape hn.matches_children
  refine ⟨strength, left, nodesOf ys, hstrength, ?_, hf hys⟩
  rw [Node.childNodes_eq, hchildren, Tree.nodesOf_append, Tree.nodesOf_node, List.singleton_append]

end

theorem InfixLayer.exists_signed (layer : InfixLayer ρ) {operator : InfixOperator ρ}
    (parts : List (List (Element ρ))) (hparts : ∀ xs ∈ parts, (layer.signed operator).Matches xs) :
    ∃ signed : List (List (Element ρ) × Node ρ), signed.length = parts.length ∧
      parts.flatten = signed.flatMap (fun p => p.1 ++ [.node p.2]) ∧
      ∀ p ∈ signed, (layer.sign operator).Matches p.1 ∧ p.2.rule ∈ layer.rules ∧
        ∀ k, Bonds.bond? p.2 = some k → operator.strength < k := by
  induction parts with
  | nil => exact ⟨[], rfl, rfl, by simp⟩
  | cons xs parts ih =>
    obtain ⟨sign, _, rfl, hsign, m, rfl, hm, hbond⟩ := hparts xs List.mem_cons_self
    obtain ⟨signed, hlength, hflatten, hsigned⟩ :=
      ih fun ys hys => hparts ys (List.mem_cons_of_mem _ hys)
    refine ⟨(sign, m) :: signed, by simp [hlength], by simp [hflatten], ?_⟩
    rw [List.forall_mem_cons]
    exact ⟨⟨hsign, hm, fun k hk => of_decide_eq_true ((Option.all_eq_true _ _).1 hbond k hk)⟩, hsigned⟩

theorem InfixLayer.exists_operands (layer : InfixLayer ρ) {operator : InfixOperator ρ}
    {es : List (Element ρ)} (h : (layer.chain operator).Matches es) :
    ∃ first, ∃ signed : List (List (Element ρ) × Node ρ), signed ≠ [] ∧
      es = .node first :: signed.flatMap (fun p => p.1 ++ [.node p.2]) ∧
      (∀ p ∈ signed, (layer.sign operator).Matches p.1) ∧
      ∀ m ∈ first :: signed.map (·.2), m.rule ∈ layer.rules ∧
        ∀ k, Bonds.bond? m = some k → operator.strength < k := by
  obtain ⟨_, _, rfl, ⟨_, second, rfl, ⟨first, rfl, hfirst, hbond⟩, hsecond⟩, parts, rfl, hparts⟩ := h
  obtain ⟨signed, hlength, hflatten, hsigned⟩ :=
    layer.exists_signed (second :: parts) (List.forall_mem_cons.2 ⟨hsecond, hparts⟩)
  refine ⟨first, signed, ?_, ?_, fun p hp => (hsigned p hp).1, ?_⟩
  · rw [← List.length_pos_iff, hlength]
    simp
  · rw [← hflatten]
    simp
  · rw [List.forall_mem_cons, List.forall_mem_map]
    exact ⟨⟨hfirst, fun k hk => of_decide_eq_true ((Option.all_eq_true _ _).1 hbond k hk)⟩,
      fun p hp => (hsigned p hp).2⟩

omit [Grammar ρ] in
theorem Tree.Node.childrenThat_of_signed {first : Node ρ}
    {signed : List (List (Element ρ) × Node ρ)}
    (hchildren : n.children = .node first :: signed.flatMap (fun p => p.1 ++ [.node p.2]))
    (hoperands : ∀ m ∈ first :: signed.map (·.2), p m.rule)
    (hsigns : ∀ q ∈ signed, ∀ m ∈ nodesOf q.1, p m.rule = false) :
    n.childrenThat p = first :: signed.map (·.2) := by
  rw [List.forall_mem_cons, List.forall_mem_map] at hoperands
  have hsigned : (nodesOf (signed.flatMap fun p => p.1 ++ [.node p.2])).filter (p ·.rule) =
      signed.map (·.2) := by
    have hrest := hoperands.2
    clear hchildren hoperands
    induction signed with
    | nil => rfl
    | cons q signed ih =>
      have hq : (nodesOf q.1).filter (p ·.rule) = [] := by
        apply List.filter_eq_nil_iff.2
        intro m hm
        simp [hsigns q List.mem_cons_self m hm]
      have ih := ih (fun k hk => hsigns k (List.mem_cons_of_mem _ hk))
        fun k hk => hrest k (List.mem_cons_of_mem _ hk)
      rw [List.flatMap_cons, Tree.nodesOf_append, Tree.nodesOf_append, List.filter_append,
        List.filter_append, hq, ih, Tree.nodesOf_node]
      simp [hrest q List.mem_cons_self]
  unfold Node.childrenThat
  rw [Node.childNodes_eq, hchildren]
  change (first :: nodesOf _).filter _ = _
  rw [List.filter_cons_of_pos (by exact hoperands.1), hsigned]

theorem Tree.Node.Joins.of_chain {layer : InfixLayer ρ} {operator : InfixOperator ρ}
    {denoted? : TokenKind → Option LogicalOperator} {connective : LogicalOperator}
    (h : (layer.chain operator).Matches n.children) (hrules : layer.rules.all p)
    (hsigns : ∀ xs, (layer.sign operator).Matches xs → (∀ m ∈ nodesOf xs, m ∈ n.childNodes) →
      (∃ t, Tree.leaves xs = [t] ∧ denoted? t.kind = some connective) ∧
        ∀ m ∈ nodesOf xs, p m.rule = false) :
    n.Joins denoted? connective (n.childrenThat p) ∧
      ∀ m ∈ n.childrenThat p, ∀ k, Bonds.bond? m = some k → operator.strength < k := by
  obtain ⟨first, signed, hne, hchildren, hmatches, hoperands⟩ := layer.exists_operands h
  have hsigned : ∀ q ∈ signed, (∃ t, Tree.leaves q.1 = [t] ∧ denoted? t.kind = some connective) ∧
      ∀ m ∈ nodesOf q.1, p m.rule = false := by
    intro q hq
    refine hsigns q.1 (hmatches q hq) fun m hm => ?_
    obtain ⟨e, he, hem⟩ := List.mem_filterMap.1 hm
    rw [Node.childNodes_eq, hchildren]
    refine List.mem_filterMap.2 ⟨e, List.mem_cons_of_mem _ ?_, hem⟩
    exact List.mem_flatMap.2 ⟨q, hq, List.mem_append_left _ he⟩
  have hlist := Node.childrenThat_of_signed hchildren
    (fun m hm => List.all_eq_true.1 hrules _ (hoperands m hm).1) fun q hq => (hsigned q hq).2
  rw [hlist]
  exact ⟨⟨first, signed, hne, rfl, hchildren, fun q hq => (hsigned q hq).1⟩,
    fun m hm => (hoperands m hm).2⟩

end

end SqlScript
