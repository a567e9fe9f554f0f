import SqlScript.Proofs.MySql.Shape
import SqlScript.Proofs.Shape.Pairs

/-!
Which productions of MySQL close the groups that they open: all of them, but for two kinds that take
a token without looking at it.
-/

namespace SqlScript.MySql

open SqlScript.Tree (Element Node Paired)

/--
The kinds of production in which semicolons separate statements.
-/
def separates (rule : Rule) : Bool :=
  match rule with
  | .sqlStatements | .emptyStatement => true
  | _ => false

/--
The token that the grammar takes without looking at it: what stands behind the `FOR` of an index
hint in front of `BY`, and behind the dot in the name of a function.
-/
def unseen? (n : Node Rule) : Option Token :=
  match n.rule, n.tokens with
  | .indexHint, _ :: _ :: word :: t :: _ => if word.isKeyword .FOR then some t else none
  | .functionCall, name :: dot :: t :: _ =>
    if !name.isKeyword .CASE && dot.kind.alike .dot then some t else none
  | _, _ => none

theorem isPlain_of_operandOperator? {kind : TokenKind} {operator : InfixOperator Rule}
    (h : operandOperator? kind = some operator) : kind.isPlain := by
  unfold operandOperator? at h
  split at h
  all_goals first | contradiction | rfl

namespace Shape

variable {loose : Bool}

open SqlScript.Shape

instance : Pairs loose tailShape :=
  inferInstanceAs (Pairs loose (sequence _))

instance : Pairs loose aliasShape :=
  inferInstanceAs (Pairs loose (sequence _ ||| opt _))

instance : Pairs loose partitionShape :=
  inferInstanceAs (Pairs loose (opt _))

instance : Pairs loose conditionShape :=
  inferInstanceAs (Pairs loose (opt _))

instance : Pairs loose targetsShape :=
  inferInstanceAs (Pairs loose (commas _))

instance : Pairs loose assignmentsShape :=
  inferInstanceAs (Pairs loose (sequence _))

instance : Pairs loose uidShape :=
  inferInstanceAs (Pairs loose (token _))

instance (operator : InfixOperator Rule) : Pairs loose (connectives.chain operator) := by
  have : Pairs loose (connectives.sign operator) := inferInstanceAs (Pairs loose (node _ _))
  exact connectives.pairs_chain operator

instance (operator : InfixOperator Rule) : Pairs loose (operandOperators.chain operator) := by
  have : Token.Plain (operandOperator? ·.kind == some operator) :=
    ⟨fun ht => isPlain_of_operandOperator? (eq_of_beq ht)⟩
  have : Pairs loose (operandOperators.sign operator) := inferInstanceAs (Pairs loose (token _))
  exact operandOperators.pairs_chain operator

theorem pairs_shape {rule : Rule} (hhint : rule ≠ .indexHint) (hcall : rule ≠ .functionCall) :
    Pairs (separates rule) (shape rule) := by
  cases rule
  all_goals first
    | contradiction
    | dsimp only [shape, separates]
      infer_instance

end Shape

section

variable {n : Node Rule}

open SqlScript.Shape (Pairs opt sequence tokenGroup word plainWord one)

theorem paired_indexHint (hrule : n.rule = .indexHint)
    (hchildren : (shape .indexHint).Matches n.children)
    (hplain : (unseen? n).all (·.kind.isPlain)) : Paired false n.children := by
  obtain ⟨_, _, heq, ⟨first, rfl, hfirst⟩, _, _, rfl, ⟨second, rfl, hsecond⟩, xs, ys, rfl, hxs,
    hys⟩ := hchildren
  have hgroup : Paired false ys := Pairs.paired hys
  rw [heq]
  apply Paired.plain (Token.Plain.isPlain (p := (·.isOneOf _)) hfirst)
  apply Paired.plain (Token.Plain.isPlain (p := (·.isOneOf _)) hsecond)
  apply Paired.append _ hgroup
  obtain rfl | ⟨_, zs, rfl, ⟨purpose, rfl, hpurpose⟩, hzs⟩ := hxs
  · exact .nil
  apply Paired.plain (Token.Plain.isPlain (p := (·.isKeyword .FOR)) hpurpose)
  obtain ⟨t, rfl, ht⟩ | ⟨us, vs, rfl, hus, hvs⟩ := hzs
  · exact .plain (Token.Plain.isPlain (p := (·.isKeyword .JOIN)) ht) .nil
  apply Paired.append (Shape.paired_anyToken hus _) (Pairs.paired (f := word .BY) hvs)
  rintro t rfl
  apply (Option.all_eq_true _ _).1 hplain
  have htokens : n.tokens =
      first :: second :: purpose :: t :: (vs ++ ys).filterMap Element.token? := by
    unfold Node.tokens
    rw [heq]
    rfl
  unfold unseen?
  rw [hrule, htokens]
  exact if_pos hpurpose

theorem paired_functionCall (hrule : n.rule = .functionCall)
    (hchildren : (shape .functionCall).Matches n.children)
    (hplain : (unseen? n).all (·.kind.isPlain)) : Paired false n.children := by
  obtain hcase | ⟨_, ys, heq, ⟨name, rfl, hname⟩, hargs⟩ := hchildren
  · exact hcase.2
  obtain ⟨hfirst, hcase⟩ := (Bool.and_eq_true _ _).mp hname
  rw [heq]
  apply Paired.plain hfirst
  obtain rfl | ⟨xs, zs, rfl, hxs, hzs⟩ := hargs
  · exact .nil
  have hend : Paired false zs := Pairs.paired (f := sequence [tokenGroup,
    opt (sequence [plainWord "AGAINST", tokenGroup]), opt (one .overClause)]) hzs
  apply Paired.append _ hend
  obtain rfl | ⟨_, us, rfl, ⟨dot, rfl, hdot⟩, hus⟩ := hxs
  · exact .nil
  apply Paired.plain (Token.Plain.isPlain (p := (·.kind.alike .dot)) hdot)
  apply Shape.paired_anyToken hus
  rintro t rfl
  apply (Option.all_eq_true _ _).1 hplain
  have htokens : n.tokens = name :: dot :: t :: zs.filterMap Element.token? := by
    unfold Node.tokens
    rw [heq]
    rfl
  unfold unseen?
  rw [hrule, htokens]
  exact if_pos ((Bool.and_eq_true _ _).mpr ⟨hcase, hdot⟩)

theorem tidy_of_formed (hn : n.Formed)
    (hplain : ∀ m, n.Contains m → (unseen? m).all (·.kind.isPlain)) :
    n.Tidy separates := by
  intro m hm
  have hchildren : (shape m.rule).Matches m.children := hn m hm
  by_cases hhint : m.rule = .indexHint
  · rw [hhint] at hchildren ⊢
    exact paired_indexHint hhint hchildren (hplain m hm)
  by_cases hcall : m.rule = .functionCall
  · rw [hcall] at hchildren ⊢
    exact paired_functionCall hcall hchildren (hplain m hm)
  have := Shape.pairs_shape hhint hcall
  exact Pairs.paired hchildren

end

end SqlScript.MySql
