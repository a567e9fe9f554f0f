import SqlScript.Proofs.Mirror.Script
import SqlScript.Proofs.MySql.Precedence
import SqlScript.Proofs.Postgres.Precedence

/-!
Trees and statements keep to the strengths of the operators.
-/

namespace SqlScript

open SqlScript.Tree (Node Element)

section

variable {ρ : Type} [DecidableEq ρ] [Production ρ] [Grammar ρ] {M : Mirror ρ} {P : Precedence ρ}
  {root n : Node ρ} {text : List Char} {x : Expr}

omit [Grammar ρ] in
theorem Mirror.Image.excerpt_of_expr (h : M.Image (.expr x) n) :
    x.excerpt = M.context.excerptOf n := by
  cases h with
  | logical hexcerpt => exact hexcerpt
  | predicate _ hexcerpt => exact hexcerpt
  | exprText h => exact congrArg Unstructured.excerpt h.1

omit [Grammar ρ] in
theorem Mirror.Image.connective?_eq {operator : LogicalOperator} (h : M.Image (.expr x) n)
    (hx : x.operator? = some operator) : M.roles.connective? M.context n = some operator := by
  cases h with
  | logical _ hread =>
    cases hx
    exact hread
  | predicate => contradiction
  | exprText => contradiction

omit [Grammar ρ] in
theorem Mirror.Image.not_isComparison {q : Predicate} {a b : Node ρ} (hn : n.Ordered P)
    (hcomparison : P.isInfix n.rule) (hpredicate : M.roles.isPredicate = P.isPredicate)
    (hsign : !P.isPredicate P.comparisonOperator) (hrule : n.rule = M.roles.comparison)
    (hchildren : n.childrenThat M.roles.isPredicate = [a, b]) (h : M.Image (.predicate q) b) :
    q.isComparison = false := by
  cases h with
  | comparison hright =>
    obtain ⟨strength, left, rights, hstrength, hnodes, hrights⟩ := hn.rights hcomparison
    have hb : b ∈ rights ∧ P.isPredicate b.rule := by
      unfold Node.childrenThat at hchildren
      rw [hnodes, hpredicate, List.filter_cons] at hchildren
      have hmem : b ∈ rights.filter (P.isPredicate ·.rule) := by
        split at hchildren
        · rw [(List.cons.inj hchildren).2]
          exact List.mem_cons_self
        · rw [hchildren]
          exact List.mem_cons_of_mem _ List.mem_cons_self
      exact List.mem_filter.1 hmem
    -- A comparison to the right would bind more strongly than itself.
    obtain h | ⟨-, h⟩ := hrights b hb.1
    · rw [h] at hb
      simp [hb.2] at hsign
    · exact absurd (h strength (by rw [hright, ← hrule, hstrength])) (Nat.lt_irrefl _)
  | amongItems | amongRows | predicateAtom | predicateText => rfl

theorem Part.Ordered.of_image (hroot : root.Genuine M.context text)
    (hordered : ∀ {n}, root.Contains n → n.Ordered P)
    (hjoins : ∀ {n : Node ρ} {operator}, n.Genuine M.context text →
      M.roles.connective? M.context n = some operator →
        n.Joins P.denoted? operator (n.childrenThat M.roles.isExpression) ∧
          ∀ m ∈ n.childrenThat M.roles.isExpression, ∀ inner,
            M.roles.connective? M.context m = some inner → operator.rank < inner.rank)
    (hcomparison : P.isInfix M.roles.comparison)
    (hpredicate : M.roles.isPredicate = P.isPredicate) (hsign : !P.isPredicate P.comparisonOperator)
    {p : Part} (hn : root.Contains n) (h : M.Image p n) : p.Ordered P M.context root := by
  cases h with
  | logical hplace hconnective hoperands =>
    obtain ⟨hjoined, hinner⟩ := hjoins (hroot.of_contains hn) hconnective
    refine ⟨hoperands.length_eq ▸ hjoined.length, ?_, n, _, hn, hplace, hjoined, ?_⟩
    · intro x hx inner hx'
      obtain ⟨m, hm, himage⟩ := exists_of_forall₂ hoperands hx
      exact hinner m hm inner (himage.connective?_eq hx')
    · rw [← List.forall₂_eq_eq_eq, List.forall₂_map_left_iff, List.forall₂_map_right_iff]
      exact hoperands.imp fun _ _ h => h.excerpt_of_expr
  | comparison hrule _ hchildren _ hright =>
    exact hright.not_isComparison (hordered hn) (hrule ▸ hcomparison) hpredicate hsign hrule
      hchildren
  | _ => trivial

omit [DecidableEq ρ] [Production ρ] [Grammar ρ] in
theorem Part.Ordered.of_isWhole {c : Context} {p : Part} (h : p.IsWhole) : p.Ordered P c root := by
  cases p
  all_goals first
    | contradiction
    | trivial

omit [DecidableEq ρ] [Production ρ] [Grammar ρ] in
theorem Part.Ordered.of_isWord {c : Context} {p : Part} (h : p.IsWord) : p.Ordered P c root := by
  cases p
  all_goals first
    | contradiction
    | trivial

end

variable {source : String} {options : Options}

def Governed (source : String) (options : Options) (statements : List Statement) : Flavor → Prop
  | .mySql => ∃ tree, MySql.parseTree source options = .ok tree ∧
      MySql.precedence.Governs (.ofString source options.baseline .mySql) tree.root statements
  | .postgreSql => ∃ tree, Postgres.parseTree source options = .ok tree ∧
      Postgres.precedence.Governs (.ofString source options.baseline .postgreSql) tree.root
        statements

theorem parse_governed {flavor : Flavor} {statements : List Statement}
    (h : parse flavor source options = .ok statements) :
    Governed source options statements flavor := by
  have hcuts := Context.cuts_ofString source options.baseline flavor
  cases flavor with
  | mySql =>
    obtain ⟨tree, htree, rfl⟩ := exists_of_map_eq_ok h
    have hroot := MySql.genuine_of_parseTree htree
    have hordered : ∀ {n}, tree.root.Contains n → n.Ordered MySql.precedence :=
      fun hn => MySql.ordered_of_formed (hroot.of_contains hn).formed
    refine ⟨tree, htree, hordered, fun s hs => ?_⟩
    obtain ⟨n, hn, hagrees⟩ := exists_of_forall₂ (MySql.statementsOf_agree hcuts hroot).flip hs
    have himage : ∀ {p n}, tree.root.Contains n → (MySql.mirror _).Image p n →
        p.Ordered MySql.precedence _ tree.root := fun hn h => .of_image (M := MySql.mirror _) hroot
      hordered (fun hn h => MySql.joins_of_connective hn h) rfl rfl rfl hn h
    exact MySql.wholes.forall_mem_parts (fun _ => trivial) himage
      (fun _ h => .of_isWhole (MySql.wholes.isWhole h)) (fun _ _ _ _ hword => .of_isWord hword)
      (Node.contains_of_mem_slots hn) hagrees.whole
  | postgreSql =>
    obtain ⟨tree, htree, rfl⟩ := exists_of_map_eq_ok h
    have hroot := Postgres.genuine_of_parseTree htree
    have hordered : ∀ {n}, tree.root.Contains n → n.Ordered Postgres.precedence :=
      fun hn => Postgres.ordered_of_formed (hroot.of_contains hn).formed
    refine ⟨tree, htree, hordered, fun s hs => ?_⟩
    obtain ⟨n, hn, hagrees⟩ := exists_of_forall₂ (Postgres.statementsOf_agree hcuts hroot).flip hs
    have himage : ∀ {p n}, tree.root.Contains n → (Postgres.mirror _).Image p n →
        p.Ordered Postgres.precedence _ tree.root := fun hn h => .of_image (M := Postgres.mirror _) hroot
      hordered (fun hn h => Postgres.joins_of_connective hn.formed h) rfl rfl rfl hn h
    exact Postgres.wholes.forall_mem_parts (fun _ => trivial) himage
      (fun _ h => .of_isWhole (Postgres.wholes.isWhole h)) (fun _ _ _ _ hword => .of_isWord hword)
      (Node.contains_of_mem_slots hn) hagrees.whole

theorem parse_governed_between :
    (∃ statements, parse .mySql
        "SELECT 1 FROM t WHERE NOT a OR b BETWEEN 1 AND 2 AND c = 3 OR d LIKE e = f" {} =
          .ok statements ∧
      Governed "SELECT 1 FROM t WHERE NOT a OR b BETWEEN 1 AND 2 AND c = 3 OR d LIKE e = f" {}
        statements .mySql) ∧
    ∃ statements, parse .postgreSql
        "SELECT 1 FROM t WHERE NOT a OR b BETWEEN 1 AND 2 AND c = 3 OR d LIKE e = f" {} =
          .ok statements ∧
      Governed "SELECT 1 FROM t WHERE NOT a OR b BETWEEN 1 AND 2 AND c = 3 OR d LIKE e = f" {}
        statements .postgreSql := by
  obtain ⟨first, hfirst⟩ := exists_eq_ok (x := parse .mySql
    "SELECT 1 FROM t WHERE NOT a OR b BETWEEN 1 AND 2 AND c = 3 OR d LIKE e = f" {})
    (by decide +kernel)
  obtain ⟨second, hsecond⟩ := exists_eq_ok (x := parse .postgreSql
    "SELECT 1 FROM t WHERE NOT a OR b BETWEEN 1 AND 2 AND c = 3 OR d LIKE e = f" {})
    (by decide +kernel)
  exact ⟨⟨first, hfirst, parse_governed hfirst⟩, second, hsecond, parse_governed hsecond⟩

end SqlScript
