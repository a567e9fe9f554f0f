import SqlScript.Proofs.Fidelity
import SqlScript.Proofs.MySql.Forms.Script
import SqlScript.Proofs.Postgres.Forms.Script
import SqlScript.Proofs.Precedence.Basic

/-!
Operators between operands stand further inside the more strongly they bind. All operators of one
production bind alike; an operand of theirs with an operator on top binds more strongly, and so does
the operand of a sign.
-/

namespace SqlScript

open SqlScript.Tree (Node Element nodesOf)

variable {ρ : Type}

/--
The operators of the operands of a grammar and the productions that they make.
-/
structure OperandTable (ρ : Type) where
  operator? : TokenKind → Option (InfixOperator ρ)
  /-- The productions of operators between operands. -/
  operations : List ρ
  /-- The productions of an operator in front of its operand. -/
  signed : List ρ
  /-- How strongly an operator in front binds. -/
  signStrength : Nat
  /-- The operations that bind less strongly. -/
  loose : List ρ

def Tree.Node.HasLevel (T : OperandTable ρ) (n : Node ρ) (level : Nat) : Prop :=
  n.tokens ≠ [] ∧ ∀ t ∈ n.tokens, T.operator? t.kind = some ⟨n.rule, level⟩

structure Tree.Node.Leveled (T : OperandTable ρ) (n : Node ρ) : Prop where
  operation : n.rule ∈ T.operations → ∃ level, n.HasLevel T level ∧
    n.childNodes.length = n.tokens.length + 1 ∧
    ∀ m ∈ n.childNodes, m.rule ∈ T.operations → ∃ inner, m.HasLevel T inner ∧ level < inner
  signed : n.rule ∈ T.signed → ∃ operand, n.childNodes = [operand] ∧ operand.rule ∉ T.loose

theorem Tree.operators_of_signed {q : Token → Prop} {signed : List (List (Element ρ) × Node ρ)}
    (hsigns : ∀ p ∈ signed, ∃ t, p.1 = [.token t] ∧ q t) :
    nodesOf (signed.flatMap fun p => p.1 ++ [.node p.2]) = signed.map (·.2) ∧
      ((signed.flatMap fun p => p.1 ++ [.node p.2]).filterMap Element.token?).length =
        signed.length ∧
      ∀ t ∈ (signed.flatMap fun p => p.1 ++ [.node p.2]).filterMap Element.token?, q t := by
  induction signed with
  | nil => exact ⟨rfl, rfl, nofun⟩
  | cons p signed ih =>
    obtain ⟨⟨t, ht, hq⟩, hsigns⟩ := List.forall_mem_cons.1 hsigns
    obtain ⟨hnodes, hlength, htokens⟩ := ih hsigns
    rw [List.flatMap_cons, ht]
    refine ⟨?_, ?_, List.forall_mem_cons.2 ⟨hq, htokens⟩⟩
    · rw [nodesOf_append, hnodes]
      rfl
    · exact congrArg (· + 1) hlength

section

variable [Grammar ρ] {T : OperandTable ρ} {layer : InfixLayer ρ} {n m : Node ρ}

/--
The table says what the layer of operators makes of operands.
-/
structure OperandTable.Describes (T : OperandTable ρ) (layer : InfixLayer ρ) : Prop where
  shaped : layer.Shaped
  operator?_eq : T.operator? = layer.operator?
  sign {operator : InfixOperator ρ} {es : List (Element ρ)} : (layer.sign operator).Matches es →
    ∃ t, es = [.token t] ∧ layer.operator? t.kind = some operator
  operation {rule : ρ} {es : List (Element ρ)} : rule ∈ T.operations →
    (Grammar.shape rule).Matches es → ∃ level, (layer.chain ⟨rule, level⟩).Matches es
  signed {rule : ρ} : rule ∈ T.signed →
    Grammar.shape rule = .sequence [.plainToken, .strong layer.rules T.signStrength]
  loose {rule : ρ} : rule ∈ T.loose → rule ∈ T.operations ∧
    ∀ {kind level}, layer.operator? kind = some ⟨rule, level⟩ → level < T.signStrength

namespace OperandTable.Describes

variable (hT : T.Describes layer)

include hT

theorem exists_level (hn : n.Formed) (hrule : n.rule ∈ T.operations) :
    ∃ level, n.HasLevel T level ∧ n.childNodes.length = n.tokens.length + 1 ∧
      Bonds.bond? n = some level ∧
      ∀ m ∈ n.childNodes, ∀ k, Bonds.bond? m = some k → level < k := by
  obtain ⟨level, hchain⟩ := hT.operation hrule hn.matches_children
  obtain ⟨first, signed, hne, hchildren, hsigns, hoperands⟩ := layer.exists_operands hchain
  obtain ⟨hnodes, hlength, htokens⟩ :=
    Tree.operators_of_signed fun p hp => hT.sign (hsigns p hp)
  have hchildNodes : n.childNodes = first :: signed.map (·.2) := by
    rw [Node.childNodes_eq, hchildren, ← hnodes]
    rfl
  have hcount : n.tokens.length = signed.length := by
    unfold Node.tokens
    rw [hchildren, ← hlength]
    rfl
  have hsame : ∀ t ∈ n.tokens, layer.operator? t.kind = some ⟨n.rule, level⟩ := by
    unfold Node.tokens
    rw [hchildren]
    exact htokens
  have hpos : n.tokens ≠ [] := by
    rw [← List.length_pos_iff, hcount, List.length_pos_iff]
    exact hne
  obtain ⟨t, ht⟩ := List.exists_mem_of_ne_nil _ hpos
  refine ⟨level, ⟨hpos, ?_⟩, ?_, hT.shaped.bond_chain (hsame t ht) rfl hchain, ?_⟩
  · rwa [hT.operator?_eq]
  · rw [hchildNodes, hcount, List.length_cons, List.length_map]
  · rw [hchildNodes]
    exact fun m hm => (hoperands m hm).2

theorem leveled (hn : n.Formed) : n.Leveled T where
  operation hrule := by
    obtain ⟨level, hlevel, hlength, -, hinner⟩ := hT.exists_level hn hrule
    refine ⟨level, hlevel, hlength, fun m hm hm' => ?_⟩
    obtain ⟨inner, hinner', -, hbond, -⟩ := hT.exists_level (hn.child hm) hm'
    exact ⟨inner, hinner', hinner m hm inner hbond⟩
  signed hrule := by
    have hmatches := hn.matches_children
    rw [hT.signed hrule] at hmatches
    obtain ⟨sign, _, hchildren, hsign, operand, rfl, -, hstrong⟩ := hmatches
    have hnodes : n.childNodes = [operand] := by
      rw [Node.childNodes_eq, hchildren, Tree.nodesOf_append, Tree.nodesOf_node]
      obtain rfl | ⟨t, rfl, -⟩ := hsign <;> rfl
    refine ⟨operand, hnodes, fun hloose => ?_⟩
    obtain ⟨hoperation, hweak⟩ := hT.loose hloose
    have hformed : operand.Formed := hn.child (by rw [hnodes]; exact List.mem_singleton_self _)
    obtain ⟨level, ⟨hpos, hlevel⟩, -, hbond, -⟩ := hT.exists_level hformed hoperation
    obtain ⟨t, ht⟩ := List.exists_mem_of_ne_nil _ hpos
    have hlt : level < T.signStrength := hweak (hT.operator?_eq ▸ hlevel t ht)
    have hle := of_decide_eq_true ((Option.all_eq_true _ _).1 hstrong level hbond)
    exact absurd hlt (Nat.not_lt.2 hle)

end OperandTable.Describes

end

namespace MySql

def operandTable : OperandTable Rule where
  operator? := operandOperator?
  operations := [.mathExpressionAtom, .bitExpressionAtom, .jsonExpressionAtom]
  signed := [.unaryExpressionAtom, .binaryExpressionAtom]
  signStrength := signStrength
  loose := [.mathExpressionAtom, .bitExpressionAtom]

theorem operandTable_describes : operandTable.Describes operandOperators where
  shaped := operandOperators_shaped
  operator?_eq := rfl
  sign := by
    rintro operator es ⟨t, rfl, ht⟩
    exact ⟨t, rfl, eq_of_beq ht⟩
  operation {rule es} hrule h := by
    simp only [operandTable, List.mem_cons, List.not_mem_nil, or_false] at hrule
    obtain rfl | rfl | rfl := hrule
    · obtain h | h := h
      · exact ⟨_, h⟩
      · exact ⟨_, h⟩
    · obtain ((h | h) | h) | h := h
      · exact ⟨_, h⟩
      · exact ⟨_, h⟩
      · exact ⟨_, h⟩
      · exact ⟨_, h⟩
    · exact ⟨_, h⟩
  signed {rule} hrule := by
    simp only [operandTable, List.mem_cons, List.not_mem_nil, or_false] at hrule
    obtain rfl | rfl := hrule
    · rfl
    · rfl
  loose {rule} hrule := by
    simp only [operandTable, List.mem_cons, List.not_mem_nil, or_false] at hrule ⊢
    refine ⟨by obtain rfl | rfl := hrule <;> simp, fun {kind level} h => ?_⟩
    change operandOperator? kind = _ at h
    unfold operandOperator? at h
    split at h <;> cases h
    all_goals simp_all [signStrength]

end MySql

namespace Postgres

def operandTable : OperandTable Rule where
  operator? := operandOperator?
  operations := [.aExprMath, .aExprQualOp]
  signed := [.aExprUnary]
  signStrength := signStrength
  loose := [.aExprMath, .aExprQualOp]

theorem operandTable_describes : operandTable.Describes operandOperators where
  shaped := operandOperators_shaped
  operator?_eq := rfl
  sign := by
    rintro operator es ⟨t, rfl, ht⟩
    exact ⟨t, rfl, eq_of_beq ht⟩
  operation {rule es} hrule h := by
    simp only [operandTable, List.mem_cons, List.not_mem_nil, or_false] at hrule
    obtain rfl | rfl := hrule
    · obtain (h | h) | h := h
      · exact ⟨_, h⟩
      · exact ⟨_, h⟩
      · exact ⟨_, h⟩
    · exact ⟨_, h⟩
  signed {rule} hrule := by
    simp only [operandTable, List.mem_cons, List.not_mem_nil, or_false] at hrule
    obtain rfl := hrule
    rfl
  loose {rule} hrule := by
    refine ⟨hrule, fun {kind level} h => ?_⟩
    change operandOperator? kind = _ at h
    unfold operandOperator? at h
    split at h <;> cases h
    all_goals decide

end Postgres

/--
The operators between the operands of a script, and in front of them, keep to their strengths.
-/
theorem parseTree_leveled (source : String) (options : Options) :
    (∀ tree, MySql.parseTree source options = .ok tree →
      ∀ n, tree.root.Contains n → n.Leveled MySql.operandTable) ∧
    ∀ tree, Postgres.parseTree source options = .ok tree →
      ∀ n, tree.root.Contains n → n.Leveled Postgres.operandTable := by
  constructor
  · intro tree htree n hn
    obtain ⟨-, hformed, -⟩ := MySql.parseTree_formed htree
    exact MySql.operandTable_describes.leveled fun m hm => hformed m (hn.trans hm)
  · intro tree htree n hn
    obtain ⟨-, hformed, -⟩ := Postgres.parseTree_formed htree
    exact Postgres.operandTable_describes.leveled fun m hm => hformed m (hn.trans hm)

theorem parseTree_leveled_mixed :
    (∃ tree n, MySql.parseTree "SELECT -a + b * c - d | e -> 'f'" {} = .ok tree ∧
      tree.root.Contains n ∧ n.rule = .mathExpressionAtom ∧ n.Leveled MySql.operandTable) ∧
    ∃ tree n, Postgres.parseTree "SELECT -a + b * c - d | e -> 'f'" {} = .ok tree ∧
      tree.root.Contains n ∧ n.rule = .aExprMath ∧ n.Leveled Postgres.operandTable := by
  constructor
  · obtain ⟨tree, htree, hany⟩ := exists_ok_of_any
      (x := MySql.parseTree "SELECT -a + b * c - d | e -> 'f'" {})
      (p := fun tree => !tree.root.all (·.rule != .mathExpressionAtom)) (by decide +kernel)
    obtain ⟨n, hn, hrule⟩ := Node.exists_of_not_all hany
    exact ⟨tree, n, htree, hn, by simpa using hrule, (parseTree_leveled _ {}).1 tree htree n hn⟩
  · obtain ⟨tree, htree, hany⟩ := exists_ok_of_any
      (x := Postgres.parseTree "SELECT -a + b * c - d | e -> 'f'" {})
      (p := fun tree => !tree.root.all (·.rule != .aExprMath)) (by decide +kernel)
    obtain ⟨n, hn, hrule⟩ := Node.exists_of_not_all hany
    exact ⟨tree, n, htree, hn, by simpa using hrule, (parseTree_leveled _ {}).2 tree htree n hn⟩

end SqlScript
