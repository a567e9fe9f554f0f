import SqlScript.Proofs.Postgres.Shape
import SqlScript.Proofs.Shape.Pairs

/-!
Which productions of PostgreSQL close the groups that they open: all of them, but for two kinds that
take a token without looking at it.
-/

namespace SqlScript.Postgres

open SqlScript.Tree (Element Node Paired)

def separates (rule : Rule) : Bool :=
  match rule with
  | .stmtmulti | .emptyStmt => true
  | _ => false

theorem isPlain_of_connective? {kind : TokenKind} {operator : InfixOperator Rule}
    (h : connective? kind = some operator) : kind.isPlain := by
  unfold connective? at h
  split at h
  all_goals first | contradiction | rfl

theorem isPlain_of_operandOperator? {kind : TokenKind} {operator : InfixOperator Rule}
    (h : operandOperator? kind = some operator) : kind.isPlain := by
  unfold operandOperator? at h
  split at h
  all_goals first | contradiction | rfl

namespace Shape

variable {loose : Bool}

open SqlScript.Shape

instance : Pairs loose tailShape :=
  inferInstanceAs (Pairs loose (sequence _))

instance : Pairs loose setTermShape :=
  inferInstanceAs (Pairs loose (_ ||| _))

instance (operand : Shape Rule) [Pairs loose operand] (words : List Keyword) :
    Pairs loose (operationShape operand words) :=
  inferInstanceAs (Pairs loose (sequence _))

instance : Pairs loose misledShape :=
  inferInstanceAs (Pairs loose (_ ||| _))

instance (operator : InfixOperator Rule) : Pairs loose (connectives.chain operator) := by
  have : Token.Plain (connective? ·.kind == some operator) :=
    ⟨fun ht => isPlain_of_connective? (eq_of_beq ht)⟩
  have : Pairs loose (connectives.sign operator) := inferInstanceAs (Pairs loose (token _))
  exact connectives.pairs_chain operator

instance (operator : InfixOperator Rule) : Pairs loose (operandOperators.chain operator) := by
  have : Token.Plain (operandOperator? ·.kind == some operator) :=
    ⟨fun ht => isPlain_of_operandOperator? (eq_of_beq ht)⟩
  have : Pairs loose (operandOperators.sign operator) := inferInstanceAs (Pairs loose (token _))
  exact operandOperators.pairs_chain operator

theorem pairs_shape {rule : Rule} (hsort : rule ≠ .sortBy) (hinsert : rule ≠ .insertStmt) :
    Pairs (separates rule) (shape rule) := by
  cases rule
  all_goals first
    | contradiction
    | dsimp only [shape, separates]
      infer_instance

end Shape

section

variable {n : Node Rule}

open SqlScript.Shape (Pairs opt sequence word one oneIn tokens)

theorem paired_sortBy (hrule : n.rule = .sortBy) (hchildren : (shape .sortBy).Matches n.children)
    (hplain : (unseen? n).all (·.kind.isPlain)) : Paired false n.children := by
  obtain ⟨_, _, heq, ⟨key, rfl, -⟩, xs, ys, rfl, hxs, hys⟩ := hchildren
  rw [heq]
  apply Paired.node
  apply Paired.append _ (Pairs.paired (f := sequence [opt tokens]) hys)
  obtain ⟨t, rfl, ht⟩ | rfl | ⟨_, zs, rfl, ⟨using', rfl, husing⟩, hzs⟩ := hxs
  · exact .plain (Token.Plain.isPlain (p := (·.isOneOf _)) ht) .nil
  · exact .nil
  apply Paired.plain (Token.Plain.isPlain (p := (·.isKeyword .USING)) husing)
  apply Shape.paired_anyToken (hzs.imp_right fun ⟨t, ht, _⟩ => ⟨t, ht, rfl⟩)
  rintro t rfl
  apply (Option.all_eq_true _ _).1 hplain
  have htokens : n.tokens = using' :: t :: ys.filterMap Element.token? := by
    unfold Node.tokens
    rw [heq]
    rfl
  unfold unseen?
  rw [hrule, htokens]
  exact if_pos husing

theorem paired_insertStmt (hrule : n.rule = .insertStmt)
    (hchildren : (shape .insertStmt).Matches n.children)
    (hplain : (unseen? n).all (·.kind.isPlain)) : Paired false n.children := by
  obtain ⟨_, _, heq, ⟨first, rfl, hfirst⟩, _, _, rfl, ⟨second, rfl, hsecond⟩, _, _, rfl,
    ⟨target, rfl, -⟩, ws, _, rfl, hws, xs, ys, rfl, hxs, hys⟩ := hchildren
  rw [heq]
  apply Paired.plain (Token.Plain.isPlain (p := (·.isKeyword .INSERT)) hfirst)
  apply Paired.plain (Token.Plain.isPlain (p := (·.isKeyword .INTO)) hsecond)
  apply Paired.node
  apply Paired.append (Pairs.paired hws)
  apply Paired.append _ (Pairs.paired hys)
  obtain rfl | ⟨_, _, rfl, ⟨overriding, rfl, hoverriding⟩, us, vs, rfl, hus, hvs⟩ := hxs
  · exact .nil
  apply Paired.plain (Token.Plain.isPlain (p := (·.isWord "OVERRIDING")) hoverriding)
  apply Paired.append (Shape.paired_anyToken hus _) (Pairs.paired (f := word .VALUE) hvs)
  rintro t rfl
  apply (Option.all_eq_true _ _).1 hplain
  have htokens : n.tokens = first :: second :: overriding :: t ::
      (vs ++ ys).filterMap Element.token? := by
    unfold Node.tokens
    rw [heq]
    obtain rfl | ⟨columns, rfl, -⟩ := hws
    · rfl
    · rfl
  unfold unseen?
  rw [hrule, htokens]
  exact if_pos hoverriding

theorem tidy_of_formed (hn : n.Formed)
    (hplain : ∀ m, n.Contains m → (unseen? m).all (·.kind.isPlain)) :
    n.Tidy separates := by
  intro m hm
  have hchildren : (shape m.rule).Matches m.children := hn m hm
  by_cases hsort : m.rule = .sortBy
  · rw [hsort] at hchildren ⊢
    exact paired_sortBy hsort hchildren (hplain m hm)
  by_cases hinsert : m.rule = .insertStmt
  · rw [hinsert] at hchildren ⊢
    exact paired_insertStmt hinsert hchildren (hplain m hm)
  have := Shape.pairs_shape hsort hinsert
  exact Pairs.paired hchildren

end

end SqlScript.Postgres
