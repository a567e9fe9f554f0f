import SqlScript.Proofs.Lineage.Exposed
import SqlScript.Proofs.Postgres.Assignment
import SqlScript.Proofs.Postgres.Telling

/-!
What the statements of a PostgreSQL script tell of the productions of its tree: of what is exposed
all is told, but for what is nested in a limit, and for what sorts or limits a query in parentheses
around which there are parentheses once more.
-/

namespace SqlScript.Postgres

open SqlScript.Tree (Node Element)
open Read (bareOperand? pairedTargets)

def holders : List Rule := [.relationRef, .insertTarget]

def isSought (rule : Rule) : Bool :=
  holders.contains rule || rule == .selectLimit || rule == .sortClause

def isReference (rule rule' : Rule) : Bool :=
  holders.contains rule && rule' == .qualifiedName

/--
Of a limit nothing is read but its counts, and of a query in parentheses the query alone. A value
that is assigned to several columns is read for each of them.
-/
def route : Route Rule where
  leftOut n m := n.rule = .selectLimit ∨ n.rule = .selectWithParens ∧ n.firstChild? ≠ some m
  repeated n m := n.rule = .multiSetClause ∧ m ∈ n.childNodes ∧
    m ∈ (pairedTargets n).map (·.2) ∧ 1 < (pairedTargets n).length
  passed rule := opened.contains rule || rule == .cExprNested
  sought := isSought
  refers := isReference

def isDeaf (rule : Rule) : Bool :=
  look rule == .bare || rule == .qualifiedName

variable {c : Context} {text : List Char} {s : Statement} {n m k : Node Rule}

theorem look_of_ne_bare (h : lineage.look n ≠ .bare) : lineage.look n = look n.rule := by
  cases hcolumn : isColumn n with
  | false => exact if_neg (by simp [hcolumn])
  | true => exact absurd (if_pos hcolumn) h

theorem opened_of_inside (h : lineage.look n = .inside) : n.rule ∈ opened := by
  have hkinds : ∀ r ∈ Rule.all, look r = .inside → r ∈ opened := by decide
  exact hkinds _ n.rule.mem_all ((look_of_ne_bare (by simp [h])).symm.trans h)

theorem rule_of_name (h : lineage.look n = .name) : n.rule = .qualifiedName := by
  have hnames : ∀ r ∈ Rule.all, look r = .name → r = .qualifiedName := by decide
  exact hnames _ n.rule.mem_all ((look_of_ne_bare (by simp [h])).symm.trans h)

set_option maxRecDepth 2000 in
theorem deaf_of_contains (hn : n.Formed) (hdeaf : isDeaf n.rule) (hm : n.Contains m) :
    isDeaf m.rule := by
  have hrules : ∀ r ∈ Rule.all, isDeaf r → (shape r).rules.all isDeaf := by decide
  induction hm with
  | refl => exact hdeaf
  | child hk _ ih =>
    exact ih (hn.child hk)
      (List.all_eq_true.1 (hrules _ (Rule.mem_all _) hdeaf) _ (hn.rule_mem hk))

theorem not_sought_of_deaf (h : isDeaf n.rule) : isSought n.rule = false := by
  have hsought : ∀ r ∈ [.relationRef, .insertTarget, .selectLimit, .sortClause], isDeaf r = false := by
    decide
  cases hrule : isSought n.rule with
  | false => rfl
  | true =>
    rw [hsought _ (by simpa [isSought, holders, or_assoc] using hrule)] at h
    contradiction

/-- A production that is nothing but another one, which is nothing but the operand. -/
structure IsOperand (n operand : Node Rule) : Prop where
  rule : n.rule = .aExprPredicate
  primary : ∃ primary, n.childNodes = [primary] ∧ primary.rule = .aExprPrimary ∧
    primary.childNodes = [operand]

theorem isOperand_of_bareOperand? (hn : n.Formed) (h : bareOperand? n = some m) :
    IsOperand n m := by
  obtain ⟨_, hrule, h⟩ := Option.bind_eq_some_iff.1 h
  obtain ⟨primary, hfirst, h⟩ := Option.bind_eq_some_iff.1 h
  obtain ⟨_, hprimary, hfirst'⟩ := Option.bind_eq_some_iff.1 h
  have hrule : n.rule = .aExprPredicate := (Option.guard_eq_some' _).1 hrule
  have hprimary : primary.rule = .aExprPrimary := (Option.guard_eq_some' _).1 hprimary
  have hformed := hn.child (Node.mem_childNodes_of_firstChild? hfirst)
  refine ⟨hrule, primary, ?_, hprimary, ?_⟩
  · rw [Node.childNodes_eq, Read.children_of_firstChild? hn (by rw [hrule]; rfl) hfirst]
    rfl
  · rw [Node.childNodes_eq, Read.children_of_firstChild? hformed (by rw [hprimary]; rfl) hfirst']
    rfl

namespace IsOperand

variable {operand : Node Rule} (h : IsOperand n operand)

include h

theorem exposed (hk : route.Exposed s n k) (hsought : isSought k.rule) :
    route.Exposed s operand k := by
  obtain ⟨primary, hchildren, hprimary, hchildren'⟩ := h.primary
  cases hk with
  | refl =>
    rw [h.rule] at hsought
    exact absurd hsought (by decide)
  | step hm _ _ hk =>
    rw [hchildren, List.mem_singleton] at hm
    subst hm
    cases hk with
    | refl =>
      rw [hprimary] at hsought
      exact absurd hsought (by decide)
    | step hm _ _ hk =>
      rw [hchildren', List.mem_singleton] at hm
      subst hm
      exact hk

theorem contains : n.Contains operand := by
  obtain ⟨primary, hchildren, -, hchildren'⟩ := h.primary
  have hprimary : primary ∈ n.childNodes := by simp [hchildren]
  have hoperand : operand ∈ primary.childNodes := by simp [hchildren']
  exact (Node.Contains.of_mem hprimary).trans (.of_mem hoperand)

theorem steps : Relation.TransGen route.Step n operand := by
  obtain ⟨primary, hchildren, hprimary, hchildren'⟩ := h.primary
  have hfirst : route.Step n primary := by
    refine ⟨by simp [hchildren], by rw [h.rule]; decide, ?_⟩
    rintro (hleft | ⟨hleft, -⟩)
    all_goals
      rw [h.rule] at hleft
      contradiction
  refine .head hfirst (.single ⟨by simp [hchildren'], by rw [hprimary]; decide, ?_⟩)
  rintro (hleft | ⟨hleft, -⟩)
  all_goals
    rw [hprimary] at hleft
    contradiction

end IsOperand

theorem exists_paired (hn : n.Formed) (hrule : n.rule = .multiSetClause) :
    ∃ targets value, n.childNodes = targets ++ [value] ∧ targets ≠ [] ∧
      (∀ m ∈ targets, m.rule = .setTarget) ∧
      (pairedTargets n = targets.map (·, value) ∨ ∃ operand, IsOperand value operand ∧
        operand.rule = .cExprNested ∧ (pairedTargets n).map (·.2) = operand.childNodes) := by
  have hnodes : ∀ {targets value}, IsMultiple n targets value →
      n.childNodes = targets ++ [value] ∧ targets ≠ [] ∧ ∀ m ∈ targets, m.rule = .setTarget := by
    rintro targets value ⟨opener, closer, sign, es, -, -, -, -, hlisted, htargets, hchildren⟩
    refine ⟨?_, hlisted.ne_nil, htargets⟩
    have hsplit : n.children = [.token opener] ++ (es ++ [.token closer, .token sign, .node value]) :=
      hchildren
    rw [Node.childNodes_eq, hsplit, Tree.nodesOf_append, Tree.nodesOf_append, hlisted.nodesOf_eq]
    rfl
  have hassigns := Read.assigns_pairedTargets hn hrule
  generalize pairedTargets n = pairs at hassigns
  cases hassigns with
  | single hsingle =>
    rw [hrule] at hsingle
    contradiction
  | @row value targets row hmultiple hrow hlength =>
    obtain ⟨hchildren, hsome, htargets⟩ := hnodes hmultiple
    obtain ⟨primary, operand, opener, closer, es, hvalue, hprimary, hprimaryRule, hoperand, hnested,
      -, -, hlisted, hitems⟩ := hrow
    refine ⟨targets, value, hchildren, hsome, htargets, .inr ⟨operand, ⟨hvalue, primary, ?_,
      hprimaryRule, ?_⟩, hnested, ?_⟩⟩
    · rw [Node.childNodes_eq, hprimary]
      rfl
    · rw [Node.childNodes_eq, hoperand]
      rfl
    · have hsplit : operand.children = [.token opener] ++ (es ++ [.token closer]) := hitems
      rw [List.map_snd_zip (Nat.le_of_eq hlength), Node.childNodes_eq, hsplit,
        Tree.nodesOf_append, Tree.nodesOf_append, hlisted.nodesOf_eq]
      simp
  | whole hmultiple =>
    obtain ⟨hchildren, hsome, htargets⟩ := hnodes hmultiple
    exact ⟨_, _, hchildren, hsome, htargets, .inl rfl⟩

theorem shown_of_multiple (hrule : n.rule = .multiSetClause) :
    shown n = (pairedTargets n).map (·.2) := by
  unfold shown
  rw [hrule]

theorem mem_childNodes_of_mem_shown (hrule : n.rule ≠ .multiSetClause) (h : m ∈ shown n) :
    m ∈ n.childNodes := by
  unfold shown at h
  split at h
  · exact List.mem_of_mem_take h
  · simp only [List.mem_append] at h
    obtain ((h | h) | h) | h := h
    all_goals exact Node.mem_childNodes_of_mem_childrenThat h
  · contradiction
  · exact h

theorem shown_sublist (hmultiple : n.rule ≠ .multiSetClause) (hupdate : n.rule ≠ .updateStmt) :
    (shown n).Sublist n.childNodes := by
  unfold shown
  split
  · exact List.take_sublist _ _
  · contradiction
  · contradiction
  · exact .refl _

theorem mem_shown_of_update (hrule : n.rule = .updateStmt) (hn : n.Formed) (h : m ∈ n.childNodes) :
    m ∈ shown n ∨ isDeaf m.rule := by
  have hrules : ∀ r ∈ (shape .updateStmt).rules, r = .relationRef ∨ r = .fromClause ∨
      isSetClause r ∨ r = .whereClause ∨ isDeaf r := by decide
  have hmem := hn.rule_mem_of_rule hrule h
  have hshown : ∀ p : Rule → Bool, p m.rule → m ∈ n.childrenThat p :=
    fun p hp => List.mem_filter.2 ⟨h, hp⟩
  unfold shown
  rw [hrule]
  simp only [List.mem_append]
  obtain h | h | h | h | h := hrules _ hmem
  · exact .inl (.inl (.inl (.inl (hshown _ (by simp [h])))))
  · exact .inl (.inl (.inl (.inr (hshown _ (by simp [h])))))
  · exact .inl (.inl (.inr (hshown _ h)))
  · exact .inl (.inr (hshown _ (by simp [h])))
  · exact .inr h

theorem mem_take_one {l : List (Node Rule)} : m ∈ l.take 1 ↔ l.head? = some m := by
  cases l <;> simp [eq_comm]

theorem not_leftOut (hrule : n.rule ≠ .selectLimit) (hgroup : n.rule ≠ .selectWithParens) :
    ¬ route.leftOut n m := by
  rintro (h | ⟨h, -⟩)
  · exact hrule h
  · exact hgroup h

theorem passed_of_opened (h : n.rule ∈ opened) : route.passed n.rule :=
  Bool.or_eq_true_iff.2 (.inl (List.contains_iff_mem.2 h))

theorem ne_limit_of_inside (h : lineage.look n = .inside) : n.rule ≠ .selectLimit := by
  have hmem := opened_of_inside h
  rintro heq
  rw [heq] at hmem
  exact absurd hmem (by decide)

theorem passes (hn : n.Formed) (hlook : lineage.look n = .inside) (hm : m ∈ lineage.shown n) :
    Relation.TransGen route.Step n m := by
  have hpassed := passed_of_opened (opened_of_inside hlook)
  have hlimit := ne_limit_of_inside hlook
  change m ∈ shown n at hm
  by_cases hmultiple : n.rule = .multiSetClause
  · have htaken : ∀ {k}, ¬ route.leftOut n k := not_leftOut hlimit (by rw [hmultiple]; decide)
    obtain ⟨targets, value, hchildren, -, -, hpaired | ⟨operand, hoperand, hnested, hpaired⟩⟩ :=
      exists_paired hn hmultiple
    · rw [shown_of_multiple hmultiple, hpaired, List.map_map] at hm
      obtain ⟨_, -, rfl⟩ := List.mem_map.1 hm
      exact .single ⟨by simp [hchildren], hpassed, htaken⟩
    · rw [shown_of_multiple hmultiple, hpaired] at hm
      refine .head ⟨by simp [hchildren], hpassed, htaken⟩ (hoperand.steps.tail ⟨hm, ?_, ?_⟩)
      · rw [hnested]
        decide
      · exact not_leftOut (by rw [hnested]; decide) (by rw [hnested]; decide)
  · refine .single ⟨mem_childNodes_of_mem_shown hmultiple hm, hpassed, ?_⟩
    rintro (h | ⟨h, hfirst⟩)
    · exact hlimit h
    · apply hfirst
      unfold shown at hm
      rw [h] at hm
      exact mem_take_one.1 hm

theorem shows (hn : n.Formed) (hm : m ∈ n.childNodes)
    (hleft : ¬ route.leftOut n m) (hk : route.Exposed s m k) (hsought : isSought k.rule) :
    ∃ m' ∈ lineage.shown n, route.Exposed s m' k := by
  have hnotDeaf : ¬ isDeaf m.rule := fun hdeaf => by
    rw [not_sought_of_deaf (deaf_of_contains (hn.child hm) hdeaf hk.contains)] at hsought
    contradiction
  change ∃ m' ∈ shown n, route.Exposed s m' k
  by_cases hmultiple : n.rule = .multiSetClause
  · obtain ⟨targets, value, hchildren, hsome, htargets, hpaired⟩ := exists_paired hn hmultiple
    rw [hchildren, List.mem_append, List.mem_singleton] at hm
    obtain hm | rfl := hm
    · rw [htargets m hm] at hnotDeaf
      exact absurd (by decide) hnotDeaf
    rw [shown_of_multiple hmultiple]
    obtain hpaired | ⟨operand, hoperand, hnested, hpaired⟩ := hpaired
    · obtain ⟨target, htarget⟩ := List.exists_mem_of_ne_nil _ hsome
      exact ⟨m, by rw [hpaired, List.map_map]; exact List.mem_map.2 ⟨target, htarget, rfl⟩, hk⟩
    · rw [hpaired]
      cases hoperand.exposed hk hsought with
      | refl =>
        rw [hnested] at hsought
        exact absurd hsought (by decide)
      | step hitem _ _ hk => exact ⟨_, hitem, hk⟩
  · refine ⟨m, ?_, hk⟩
    by_cases hupdate : n.rule = .updateStmt
    · exact (mem_shown_of_update hupdate hn hm).resolve_right hnotDeaf
    by_cases hgroup : n.rule = .selectWithParens
    · have hfirst : n.firstChild? = some m := by
        by_contra hne
        exact hleft (.inr ⟨hgroup, hne⟩)
      unfold shown
      rw [hgroup]
      exact mem_take_one.2 hfirst
    · rwa [shown_eq n (by simp [rearranged, hmultiple, hupdate, hgroup])]

theorem ends (hn : n.Formed) (hinside : lineage.look n ≠ .inside) (htext : lineage.look n ≠ .text)
    (hm : m ∈ n.childNodes) (hleft : ¬ route.leftOut n m) (hk : route.Exposed s m k) :
    ¬ isSought k.rule := by
  have hdeaf : isDeaf m.rule → ¬ isSought k.rule := fun h => by
    rw [not_sought_of_deaf (deaf_of_contains (hn.child hm) h hk.contains)]
    decide
  cases hcolumn : isColumn n with
  | true =>
    intro hsought
    have hrule : n.rule = .targetEl := by
      by_contra hne
      rw [isColumn_eq_false n hne] at hcolumn
      contradiction
    obtain ⟨expression, hexpression⟩ :=
      hn.exists_child hrule Rule.isExpressionForm (by decide)
    have hoperand : (bareOperand? expression).any (·.rule == .columnref) := by
      simpa [isColumn, hrule, hexpression] using hcolumn
    obtain ⟨operand, hbare, hcolumnref⟩ := (Option.any_eq_true _ _).1 hoperand
    have hrules : ∀ r ∈ (shape .targetEl).rules, r.isExpressionForm ∨ isDeaf r := by decide
    obtain hform | h := hrules _ (hn.rule_mem_of_rule hrule hm)
    · have hone : n.childrenThat Rule.isExpressionForm = [expression] := by
        have h := hn.childrenThat_eq (p := Rule.isExpressionForm) (by rw [hrule]; decide)
        rwa [hexpression] at h
      have hm' : m ∈ n.childrenThat Rule.isExpressionForm := List.mem_filter.2 ⟨hm, hform⟩
      obtain rfl : m = expression := by simpa [hone] using hm'
      have hoperand := isOperand_of_bareOperand? (hn.child hm) hbare
      have hformed : operand.Formed := fun k hk => hn.child hm k (hoperand.contains.trans hk)
      have hdeaf := deaf_of_contains hformed (by rw [eq_of_beq hcolumnref]; decide)
        (hoperand.exposed hk hsought).contains
      rw [not_sought_of_deaf hdeaf] at hsought
      contradiction
    · exact hdeaf h hsought
  | false =>
    have hlook : lineage.look n = look n.rule := if_neg (by simp [hcolumn])
    rw [hlook] at hinside htext
    have hdeaf' : isDeaf n.rule := by
      have hlimit : n.rule ≠ .selectLimit := fun h => hleft (.inl h)
      unfold isDeaf
      revert hinside htext
      unfold look
      split_ifs <;> simp_all
    exact hdeaf (deaf_of_contains hn hdeaf' (.of_mem hm))

theorem isExpressionForm_of_paired {target value : Node Rule} (h : (target, value) ∈ pairedTargets n) :
    Rule.isExpressionForm value.rule := by
  obtain ⟨-, whole, hwhole, rfl | ⟨row, -, -, hvalue⟩⟩ := Read.cases_of_mem_pairedTargets h
  · exact Node.rule_of_findChild? hwhole
  · exact Node.rule_of_mem_childrenThat hvalue

theorem update_apart (hlaid : n.Laid text) (hrule : n.rule = .updateStmt) :
    (shown n).Pairwise fun a b => a.span.Apart b.span := by
  have hchild : ∀ p : Rule → Bool,
      (n.childrenThat p).Pairwise fun a b => a.span.Apart b.span :=
    fun p => (hlaid.childNodes_pairwise.imp .inl).sublist List.filter_sublist
  -- What is of different kinds is different.
  have hcross : ∀ {p q : Rule → Bool}, (∀ r ∈ Rule.all, p r → q r = false) →
      ∀ a ∈ n.childrenThat p, ∀ b ∈ n.childrenThat q, a.span.Apart b.span := by
    intro p q hpq a ha b hb
    apply hlaid.child_apart (Node.mem_childNodes_of_mem_childrenThat ha)
      (Node.mem_childNodes_of_mem_childrenThat hb)
    rintro rfl
    have hp := hpq _ a.rule.mem_all (Node.rule_of_mem_childrenThat ha)
    rw [Node.rule_of_mem_childrenThat hb] at hp
    contradiction
  unfold shown
  rw [hrule]
  simp only [List.pairwise_append, List.mem_append]
  refine ⟨⟨⟨hchild _, hchild _, hcross (by decide)⟩, hchild _, ?_⟩, hchild _, ?_⟩
  · rintro a (ha | ha)
    · exact hcross (by decide) a ha
    · exact hcross (by decide) a ha
  · rintro a ((ha | ha) | ha)
    · exact hcross (by decide) a ha
    · exact hcross (by decide) a ha
    · exact hcross (by decide) a ha

/-- What is read of a production does not overlap, unless it is one value that is read repeatedly. -/
theorem shown_apart (hn : n.Formed) (hlaid : n.Laid text)
    (hbelow : ∀ {m k}, m ∈ n.childNodes → m.Contains k → k.Laid text) :
    (shown n).Pairwise (fun a b => a.span.Apart b.span) ∨
      ∃ k, route.repeated n k ∧ ∀ m ∈ shown n, m = k := by
  by_cases hmultiple : n.rule = .multiSetClause
  · obtain ⟨targets, value, hchildren, -, -, hpaired⟩ := exists_paired hn hmultiple
    have hvalue : value ∈ n.childNodes := by simp [hchildren]
    rw [shown_of_multiple hmultiple]
    obtain hpaired | ⟨operand, hoperand, -, hpaired⟩ := hpaired
    · have hshown : (pairedTargets n).map (·.2) = targets.map fun _ => value := by
        rw [hpaired, List.map_map]
        rfl
      have hlength : (pairedTargets n).length = targets.length := by rw [hpaired, List.length_map]
      rw [hshown]
      by_cases hmany : 1 < targets.length
      · right
        have hmem : value ∈ targets.map fun _ => value := by
          obtain ⟨target, htarget⟩ := List.exists_mem_of_length_pos (Nat.zero_lt_of_lt hmany)
          exact List.mem_map.2 ⟨target, htarget, rfl⟩
        refine ⟨value, ⟨hmultiple, hvalue, by rwa [hshown], by rwa [hlength]⟩, ?_⟩
        simp
      · left
        match targets, hmany with
        | [], _ => exact .nil
        | [_], _ => exact List.pairwise_singleton _ _
        | _ :: _ :: _, hmany => simp at hmany
    · left
      rw [hpaired]
      exact (hbelow hvalue (hoperand.contains)).childNodes_pairwise.imp .inl
  · left
    by_cases hupdate : n.rule = .updateStmt
    · exact update_apart hlaid hupdate
    · have hsublist : (shown n).Sublist n.childNodes := shown_sublist hmultiple hupdate
      exact (hlaid.childNodes_pairwise.imp .inl).sublist hsublist

theorem lineage_keeps : lineage.Keeps route where
  heard {rule} h := by
    have hkinds : ∀ r ∈ .cExprNested :: opened, lineage.kinds.contains r := by decide
    rw [lineage_hears]
    exact hkinds _ (by simpa [route, or_comm] using h)
  passes := passes
  shows hn _ := shows hn
  ends := ends
  name {n m} h hm := by
    change isReference n.rule m.rule at h
    rw [isReference, Bool.and_eq_true, beq_iff_eq, List.contains_iff_mem] at h
    have hholders : ∀ r ∈ holders, look r = .inside ∧ r ∉ rearranged ∧ r ≠ .targetEl ∧
        isSought r := by decide
    obtain ⟨hinside, hplain, hel, hsought⟩ := hholders _ h.1
    refine ⟨hsought, (look_eq hel).trans hinside, ?_, ?_⟩
    · change m ∈ shown n
      rwa [shown_eq n hplain]
    · exact (look_eq (by rw [h.2]; decide)).trans ((congrArg look h.2).trans (by decide))
  refers {n m} hn hlook hm hname := by
    have hrule := rule_of_name hname
    have hmultiple : n.rule ≠ .multiSetClause := by
      intro heq
      change m ∈ shown n at hm
      rw [shown_of_multiple heq] at hm
      obtain ⟨⟨target, value⟩, hpair, rfl⟩ := List.mem_map.1 hm
      have hform := isExpressionForm_of_paired hpair
      rw [hrule] at hform
      exact absurd hform (by decide)
    have hmem := mem_childNodes_of_mem_shown hmultiple hm
    have hrules : ∀ r ∈ opened, .qualifiedName ∈ (shape r).rules → holders.contains r := by
      decide
    have hin := hn.rule_mem hmem
    rw [hrule] at hin
    refine ⟨hmem, ?_⟩
    change isReference n.rule m.rule
    rw [isReference, hrule, hrules _ (opened_of_inside hlook) hin]
    rfl
  apart {n text} hn hlaid _ := shown_apart hn (hlaid.nodes rfl (.refl n)) fun hm =>
    (hlaid.child hm).nodes rfl

theorem occupied_of_name (hn : n.Genuine c text) (h : lineage.look n = .name) :
    n.span.start < n.span.stop :=
  hn.occupied (by rw [rule_of_name h]; decide)

theorem occupied_of_limit (hn : n.Genuine c text) (hrule : n.rule = .selectLimit) :
    n.span.start < n.span.stop := by
  let isLimit : Rule → Bool := [.limitClause, .offsetClause, .fetchClause].contains
  have hshapes : ∀ r ∈ Rule.all, isLimit r → (shape r).requiresToken := by decide
  obtain ⟨m, hm⟩ := hn.formed.exists_child hrule isLimit (by decide)
  have hmem := Node.mem_childNodes_of_findChild? hm
  exact hn.occupied_of_child hmem
    ((hn.child hmem).occupied (hshapes _ m.rule.mem_all (Node.rule_of_findChild? hm)))

section

variable {good : Excerpt → Prop} {root : Node Rule} (hc : c.Cuts text good)
  (hroot : root.Genuine c text)

include hc hroot

theorem statementOf_told (hn : n ∈ slots root) :
    n.Genuine c text ∧ (n.rule = .emptyStmt ∨ n.rule = .stmt) ∧
      lineage.partMarks (.statement (Read.statementOf c (.ofTree Read.roles c root) n)) =
        lineage.marks n := by
  obtain ⟨hready, hrule⟩ := ready_of_mem_slots hroot hn
  exact ⟨hready.toGenuine, hrule,
    Read.statementOf_tells hc (Read.values_told hc root.height) hready hrule⟩

theorem statementsOf_list : List.Forall₂ route.Lists (slots root) (statementsOf c root) := by
  refine forall₂_statementsOf fun n hn => ?_
  obtain ⟨hn, hrule, htells⟩ := statementOf_told hc hroot hn
  apply lineage_keeps.lists hn htells
  · exact fun m hm => occupied_of_name (hn.of_contains hm)
  · intro h
    rw [rule_of_name h] at hrule
    exact absurd hrule (by decide)

theorem statementsOf_bound :
    List.Forall₂ (route.Bounds .selectLimit .sortClause) (slots root) (statementsOf c root) := by
  refine forall₂_statementsOf fun n hn => ?_
  obtain ⟨hn, -, htells⟩ := statementOf_told hc hroot hn
  apply lineage_keeps.bounds hn htells
  · intro m hm hrule
    exact ⟨by rw [hrule]; decide, (look_eq (by rw [hrule]; decide)).trans (by rw [hrule]; decide),
      occupied_of_limit (hn.of_contains hm) hrule⟩
  · intro m hm hrule
    exact ⟨by rw [hrule]; decide, (look_eq (by rw [hrule]; decide)).trans (by rw [hrule]; decide),
      (hn.of_contains hm).occupied (by rw [hrule]; decide)⟩
  · rw [lineage_hears]
    decide

end

-- The order of tables

/--
Tables are named in the text where they are listed: not both in the assignments of an update and
behind `FROM`, and not in a value that several columns share.
-/
def InOrder (n : Node Rule) : Prop :=
  ∀ u ∈ n.childNodes, u.rule = .updateStmt →
    ((∀ k ∈ u.childrenOf .fromClause, lineage.tablesOf k = []) ∨
      ∀ k ∈ u.childrenThat isSetClause, lineage.tablesOf k = []) ∧
    ∀ k ∈ u.childNodes, ∀ v, route.repeated k v → lineage.tablesOf v = []

/--
The kinds of production in which those of a kind stand, for a few kinds.
-/
def parents? : Rule → Option (List Rule)
  | .root => some []
  | .stmtmulti => some [.root]
  | .stmt => some [.stmtmulti]
  | .updateStmt => some [.stmt]
  | .multiSetClause => some [.updateStmt]
  | _ => none

set_option maxRecDepth 2000 in
theorem mem_parents {parents : List Rule} (hn : n.Formed) (hm : m ∈ n.childNodes)
    (hparents : parents? m.rule = some parents) : n.rule ∈ parents := by
  have hall : ∀ r ∈ Rule.all, (shape r).rules.all fun r' => (parents? r').all (·.contains r) := by
    decide
  have h := List.all_eq_true.1 (hall _ n.rule.mem_all) _ (hn.rule_mem hm)
  rw [hparents] at h
  exact List.contains_iff_mem.1 h

theorem above {parents : List Rule} (hn : n.Formed) (hm : lineage.Reaches n m)
    (hparents : parents? m.rule = some parents) :
    n = m ∨ ∃ k, lineage.Reaches n k ∧ k.rule ∈ parents ∧ m ∈ k.childNodes := by
  obtain h | ⟨k, hk, hlook, hmem⟩ := hm.last
  · exact .inl h
  · have hform : m.rule.isExpressionForm = false := by
      revert hparents
      unfold parents?
      split <;> simp_all [Rule.isExpressionForm]
    have hmultiple : k.rule ≠ .multiSetClause := by
      intro heq
      change m ∈ shown k at hmem
      rw [shown_of_multiple heq] at hmem
      obtain ⟨⟨target, value⟩, hpair, rfl⟩ := List.mem_map.1 hmem
      rw [isExpressionForm_of_paired hpair] at hform
      contradiction
    have hmem := mem_childNodes_of_mem_shown hmultiple hmem
    have hk' : k.Formed := fun a ha => hn a (hk.contains.trans ha)
    exact .inr ⟨k, hk, mem_parents hk' hmem hparents, hmem⟩

theorem eq_of_reaches_stmt (hn : n.Formed) (hrule : n.rule = .emptyStmt ∨ n.rule = .stmt)
    (hm : lineage.Reaches n m) (hstmt : m.rule = .stmt) : n = m := by
  obtain h | ⟨k, hk, hkrule, -⟩ := above hn hm (by rw [hstmt]; rfl)
  · exact h
  have hkrule := List.mem_singleton.1 hkrule
  obtain rfl | ⟨a, ha, harule, -⟩ := above hn hk (by rw [hkrule]; rfl)
  · rw [hkrule] at hrule
    exact absurd hrule (by decide)
  have harule := List.mem_singleton.1 harule
  obtain rfl | ⟨b, -, hnone, -⟩ := above hn ha (by rw [harule]; rfl)
  · rw [harule] at hrule
    exact absurd hrule (by decide)
  · contradiction

theorem mem_of_reaches_update (hn : n.Formed) (hrule : n.rule = .emptyStmt ∨ n.rule = .stmt)
    (hm : lineage.Reaches n m) (hupdate : m.rule = .updateStmt) : m ∈ n.childNodes := by
  obtain rfl | ⟨k, hk, hkrule, hmem⟩ := above hn hm (by rw [hupdate]; rfl)
  · rw [hupdate] at hrule
    exact absurd hrule (by decide)
  · rwa [eq_of_reaches_stmt hn hrule hk (List.mem_singleton.1 hkrule)]

theorem exists_update (hn : n.Formed) (hrule : n.rule = .emptyStmt ∨ n.rule = .stmt)
    (hm : lineage.Reaches n m) (hmultiple : m.rule = .multiSetClause) :
    ∃ u ∈ n.childNodes, u.rule = .updateStmt ∧ m ∈ u.childNodes := by
  obtain rfl | ⟨k, hk, hkrule, hmem⟩ := above hn hm (by rw [hmultiple]; rfl)
  · rw [hmultiple] at hrule
    exact absurd hrule (by decide)
  · have hkrule := List.mem_singleton.1 hkrule
    exact ⟨k, mem_of_reaches_update hn hrule hk hkrule, hkrule, hmem⟩

theorem before_of_update (hn : n.Genuine c text) (hrule : n.rule = .updateStmt) {p q : Rule → Bool}
    (hpq : ∀ r ∈ Rule.all, p r → q r = false)
    (hordered : (shape .updateStmt).ordered fun a b => !(q a && p b)) (hm : m ∈ n.childrenThat p)
    (hk : k ∈ n.childrenThat q) : m.span.stop ≤ k.span.start := by
  have hrules : n.childNodes.Pairwise fun a b => !(q a.rule && p b.rule) := by
    have h := hn.formed.matches_children
    rw [hrule] at h
    exact h.pairwise hordered
  have hpairs := (hn.laid.nodes rfl (.refl n)).childNodes_pairwise.and hrules
  have hp := Node.rule_of_mem_childrenThat hm
  have hq := Node.rule_of_mem_childrenThat hk
  obtain ⟨front, behind, hsplit⟩ :=
    List.append_of_mem (Node.mem_childNodes_of_mem_childrenThat hm)
  have hmem := Node.mem_childNodes_of_mem_childrenThat hk
  rw [hsplit] at hpairs hmem
  obtain ⟨-, hbehind, hcross⟩ := List.pairwise_append.1 hpairs
  rcases List.mem_append.1 hmem with hmem | hmem
  · have h := (hcross k hmem m List.mem_cons_self).2
    simp [hp, hq] at h
  · obtain rfl | hmem := List.mem_cons.1 hmem
    · rw [hpq _ k.rule.mem_all hp] at hq
      contradiction
    · exact (List.rel_of_pairwise_cons hbehind hmem).1

theorem tablesOf_occupied (hn : n.Genuine c text) (h : lineage.tablesOf n ≠ []) :
    n.span.start < n.span.stop := by
  obtain ⟨span, hspan⟩ := List.exists_mem_of_ne_nil _ h
  obtain ⟨m, hm, hlook, -⟩ := Lineage.mem_tablesOf.1 hspan
  have hlt := occupied_of_name (hn.of_contains hm.contains) hlook
  have hwithin := hn.laid.within hm.contains
  exact Nat.lt_of_le_of_lt hwithin.start (Nat.lt_of_lt_of_le hlt hwithin.stop)

/-- An update is read in order if there are no tables in its assignments or none behind `FROM`. -/
theorem orderly_update_iff (hn : n.Genuine c text) (hrule : n.rule = .updateStmt) :
    lineage.Orderly n ↔ (∀ k ∈ n.childrenOf .fromClause, lineage.tablesOf k = []) ∨
      ∀ k ∈ n.childrenThat isSetClause, lineage.tablesOf k = [] := by
  have hshown : lineage.shown n = n.childrenOf .relationRef ++ n.childrenOf .fromClause ++
      n.childrenThat isSetClause ++ n.childrenOf .whereClause := by
    change shown n = _
    unfold shown
    rw [hrule]
  have hchild : ∀ p : Rule → Bool,
      ((n.childrenThat p).filter (lineage.tablesOf · ≠ [])).Pairwise fun a b =>
        a.span.stop ≤ b.span.start :=
    fun p => ((hn.laid.nodes rfl (.refl n)).childNodes_pairwise.sublist List.filter_sublist).filter _
  have hcross : ∀ {p q : Rule → Bool}, (∀ r ∈ Rule.all, p r → q r = false) →
      ((shape .updateStmt).ordered fun a b => !(q a && p b)) →
      ∀ a ∈ (n.childrenThat p).filter (lineage.tablesOf · ≠ []),
      ∀ b ∈ (n.childrenThat q).filter (lineage.tablesOf · ≠ []), a.span.stop ≤ b.span.start :=
    fun hpq hordered a ha b hb => before_of_update hn hrule hpq hordered
      (List.mem_of_mem_filter ha) (List.mem_of_mem_filter hb)
  have hnone : ∀ {l : List (Node Rule)}, (∀ k ∈ l, lineage.tablesOf k = []) ↔
      l.filter (lineage.tablesOf · ≠ []) = [] := by
    simp [List.filter_eq_nil_iff]
  unfold Lineage.Orderly
  rw [hshown, hnone, hnone]
  simp only [List.filter_append, Node.childrenOf]
  constructor
  · intro h
    -- The clauses that assign stand in front of `FROM`, and they are read behind it.
    by_contra hboth
    rw [not_or] at hboth
    obtain ⟨a, ha⟩ := List.exists_mem_of_ne_nil _ hboth.1
    obtain ⟨b, hb⟩ := List.exists_mem_of_ne_nil _ hboth.2
    have hread := (List.pairwise_append.1 (List.pairwise_append.1 h).1).2.2 a
      (List.mem_append_right _ ha) b hb
    have hstands := hcross (p := isSetClause) (q := (· == .fromClause)) (by decide) (by decide)
      b hb a ha
    have hlt : a.span.start < a.span.stop := by
      obtain ⟨hmem, htables⟩ := List.mem_filter.1 ha
      exact tablesOf_occupied (hn.child (Node.mem_childNodes_of_mem_childrenThat hmem))
        (by simpa using htables)
    have hlt' : b.span.start < b.span.stop := by
      obtain ⟨hmem, htables⟩ := List.mem_filter.1 hb
      exact tablesOf_occupied (hn.child (Node.mem_childNodes_of_mem_childrenThat hmem))
        (by simpa using htables)
    omega
  · rintro (h | h)
    · rw [h, List.append_nil]
      simp only [List.pairwise_append, List.mem_append]
      refine ⟨⟨hchild _, hchild _, hcross (by decide) (by decide)⟩, hchild _, ?_⟩
      rintro a (ha | ha)
      · exact hcross (by decide) (by decide) a ha
      · exact hcross (by decide) (by decide) a ha
    · rw [h, List.append_nil]
      simp only [List.pairwise_append, List.mem_append]
      refine ⟨⟨hchild _, hchild _, hcross (by decide) (by decide)⟩, hchild _, ?_⟩
      rintro a (ha | ha)
      · exact hcross (by decide) (by decide) a ha
      · exact hcross (by decide) (by decide) a ha

theorem orderly_multiple_iff (hn : n.Genuine c text) (hrule : n.rule = .multiSetClause) :
    lineage.Orderly n ↔ ∀ v, route.repeated n v → lineage.tablesOf v = [] := by
  have hshown : lineage.shown n = (pairedTargets n).map (·.2) := shown_of_multiple hrule
  obtain ⟨targets, value, hchildren, -, htargets, hpaired | ⟨operand, hoperand, -, hpaired⟩⟩ :=
    exists_paired hn.formed hrule
  · have hvalue : value ∈ n.childNodes := by simp [hchildren]
    have hlength : (pairedTargets n).length = targets.length := by rw [hpaired, List.length_map]
    have hvalues : (pairedTargets n).map (·.2) = List.replicate targets.length value := by
      rw [hpaired, List.map_map]
      exact List.map_const' ..
    unfold Lineage.Orderly
    rw [hshown, hvalues]
    have heq : ∀ v, route.repeated n v → v = value ∧ 1 < targets.length := by
      rintro v ⟨-, -, hv, hmany⟩
      rw [hvalues] at hv
      exact ⟨List.eq_of_mem_replicate hv, hlength ▸ hmany⟩
    by_cases htables : lineage.tablesOf value = []
    · refine iff_of_true ?_ fun v hv => by rw [(heq v hv).1, htables]
      rw [List.filter_eq_nil_iff.2]
      · exact .nil
      · intro v hv
        rw [List.eq_of_mem_replicate hv]
        simpa using htables
    · rw [List.filter_eq_self.2 fun v hv => by
        rw [List.eq_of_mem_replicate hv]
        simpa using htables]
      have hlt := tablesOf_occupied (hn.child hvalue) htables
      rw [List.pairwise_replicate, or_iff_left (by omega)]
      constructor
      · intro hfew v hv
        have := (heq v hv).2
        omega
      · intro h
        by_contra hmany
        have hmem : value ∈ List.replicate targets.length value :=
          List.mem_replicate.2 ⟨by omega, rfl⟩
        exact htables (h value ⟨hrule, hvalue, by rwa [hvalues], by omega⟩)
  · unfold Lineage.Orderly
    rw [hshown, hpaired]
    have hcontains : n.Contains operand :=
      (Node.Contains.of_mem (by simp [hchildren])).trans hoperand.contains
    refine iff_of_true
      ((hn.laid.nodes rfl hcontains).childNodes_pairwise.filter _) ?_
    -- The items of a row do not stand in the clause itself.
    rintro v ⟨-, hmem, hv, -⟩
    obtain ⟨⟨target, v⟩, hpair, rfl⟩ := List.mem_map.1 hv
    have hform := isExpressionForm_of_paired hpair
    rw [hpaired] at hv
    rw [hchildren, List.mem_append, List.mem_singleton] at hmem
    obtain hmem | rfl := hmem
    · rw [htargets _ hmem] at hform
      exact absurd hform (by decide)
    · obtain ⟨primary, hprimary, -, hprimary'⟩ := hoperand.primary
      have h := Tree.Node.height_lt_of_mem_childNodes hv
      have h' := Tree.Node.height_lt_of_mem_childNodes (n := primary) (m := operand)
        (by simp [hprimary'])
      have h'' := Tree.Node.height_lt_of_mem_childNodes (m := primary)
        (by rw [hprimary]; exact List.mem_singleton_self _)
      omega

theorem orderly_iff (hn : n.Genuine c text) (hrule : n.rule = .emptyStmt ∨ n.rule = .stmt) :
    (∀ m, lineage.Reaches n m → lineage.look m = .inside → lineage.Orderly m) ↔ InOrder n := by
  have hinside : ∀ {m : Node Rule}, m.rule ∈ opened → lineage.look m = .inside := by
    intro m hm
    have hkinds : ∀ r ∈ opened, r ≠ .targetEl ∧ look r = .inside := by decide
    obtain ⟨hel, hlook⟩ := hkinds _ hm
    exact (look_eq hel).trans hlook
  constructor
  · intro h u hu hupdate
    have hstmt : n.rule = .stmt :=
      List.mem_singleton.1 (mem_parents hn.formed hu (by rw [hupdate]; rfl))
    have hshown : u ∈ lineage.shown n := by
      change u ∈ shown n
      rwa [shown_eq n (by rw [hstmt]; decide)]
    have hreach := (Lineage.Reaches.refl n).tail (hinside (by rw [hstmt]; decide)) hshown
    have hu' := hn.child hu
    have hlook := hinside (m := u) (by rw [hupdate]; decide)
    refine ⟨(orderly_update_iff hu' hupdate).1 (h u hreach hlook), ?_⟩
    intro k hk v hv
    have hmultiple : k.rule = .multiSetClause := hv.1
    have hread := (mem_shown_of_update hupdate hu'.formed hk).resolve_right
      (by rw [hmultiple]; decide)
    exact (orderly_multiple_iff (hu'.child hk) hmultiple).1
      (h k (hreach.tail hlook hread) (hinside (by rw [hmultiple]; decide))) v hv
  · intro h m hm hlook
    have hm' := hn.of_contains hm.contains
    by_cases hupdate : m.rule = .updateStmt
    · exact (orderly_update_iff hm' hupdate).2
        (h m (mem_of_reaches_update hn.formed hrule hm hupdate) hupdate).1
    by_cases hmultiple : m.rule = .multiSetClause
    · obtain ⟨u, hu, hurule, hmem⟩ := exists_update hn.formed hrule hm hmultiple
      exact (orderly_multiple_iff hm' hmultiple).2 ((h u hu hurule).2 m hmem)
    · have hlaid := (hm'.laid.nodes rfl (.refl m)).childNodes_pairwise
      exact (hlaid.sublist (shown_sublist hmultiple hupdate)).filter _

theorem statementsOf_increasing_iff {good : Excerpt → Prop} {root : Node Rule} (hc : c.Cuts text good)
    (hroot : root.Genuine c text) :
    List.Forall₂ (fun n (s : Statement) =>
      (s.tables.map (·.excerpt.span.start)).Pairwise (· < ·) ↔ InOrder n)
      (slots root) (statementsOf c root) := by
  refine forall₂_statementsOf fun n hn => ?_
  obtain ⟨hn, hrule, htells⟩ := statementOf_told hc hroot hn
  rw [lineage_keeps.tables_increasing_iff hn
    (fun m hm => occupied_of_name (hn.of_contains hm)) htells]
  exact orderly_iff hn hrule

end SqlScript.Postgres
