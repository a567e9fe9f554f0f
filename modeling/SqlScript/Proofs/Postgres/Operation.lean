import SqlScript.Proofs.Postgres.Balance
import SqlScript.Proofs.Shape.Slots

/-!
Set operations of PostgreSQL. One scan of the tokens in front decides whether intersections are
grouped; what it says of the operators that are met later holds as long as it does not lose its way.
-/

namespace SqlScript.Postgres

open SqlScript.Shape
open SqlScript.Tree (Element Node leaves)
open Token (Transparent)

def isInner (rule : Rule) : Bool :=
  match rule with
  | .root | .stmtmulti | .stmt | .emptyStmt | .insertStmt => false
  | _ => true

section

variable {n m : Node Rule}

theorem all_isInner {rule : Rule} (h : isInner rule) : (shape rule).rules.all isInner := by
  cases rule
  all_goals first | contradiction | rfl

theorem isInner_of_contains (hn : n.Formed) (hrule : isInner n.rule) (hm : n.Contains m) :
    isInner m.rule := by
  induction hm with
  | refl => exact hrule
  | child hk _ ih =>
    exact ih (hn.child hk) (List.all_eq_true.1 (all_isInner hrule) _ (hn.rule_mem hk))

theorem separates_eq_false {rule : Rule} (h : isInner rule) : separates rule = false := by
  unfold isInner at h
  unfold separates
  split at h
  all_goals first | contradiction | simp_all

theorem transparent_of_formed (hn : n.Formed) (hrule : isInner n.rule)
    (hleads : misleads n = false) : Transparent false n.leaves := by
  have htidy : n.Tidy separates :=
    tidy_of_formed hn fun m hm => Node.of_all ((Bool.not_eq_false' _).mp hleads) hm
  exact htidy.transparent fun m hm => separates_eq_false (isInner_of_contains hn hrule hm)

theorem exists_setOperator (hn : n.Formed) (hrule : n.rule = .setOperationPart) :
    ∃ t ys, n.children = .token t :: ys ∧ t.isOneOf setOperators := by
  have h := hn.matches_children
  rw [hrule] at h
  obtain ⟨_, ys, hchildren, ⟨t, rfl, ht⟩, -⟩ := h
  exact ⟨t, ys, hchildren, ht⟩

end

theorem intersects_of_matches {n : Node Rule}
    (h : (oneIn setPrimaries ++ many (node [.setOperationPart] (joinsBy [.INTERSECT]))).Matches
      n.children) : intersects n := by
  obtain ⟨xs, ys, hchildren, hxs, hys⟩ := h
  unfold intersects
  rw [List.all_eq_true]
  intro m hm
  obtain ⟨hmem, hrule⟩ := List.mem_filter.1 hm
  rw [Tree.Node.childNodes_eq, hchildren, Tree.nodesOf_append, List.mem_append] at hmem
  obtain hmem | hmem := hmem
  · obtain ⟨k, rfl, hk⟩ := matches_oneIn.1 hxs
    rw [Tree.nodesOf_node, List.mem_singleton] at hmem
    rw [← hmem, eq_of_beq hrule] at hk
    contradiction
  · exact (hys.of_mem_many hmem).2

theorem isOneOf_intersect {t : Token} (ht : t.isOneOf setOperators)
    (hweak : t.isOneOf [.UNION, .EXCEPT] = false) : t.isOneOf [.INTERSECT] := by
  unfold Token.isOneOf setOperators at *
  cases hword : t.keyword? <;> simp_all

variable {es : List (Element Rule)} {ts us : List Token}

theorem parts_of_scan {parts : List (List (Element Rule))} (hts : Transparent false ts)
    (hparts : ∀ xs ∈ parts, (one Rule.setOperationPart).Matches xs)
    (hformed : ∀ e ∈ parts.flatten, e.Formed)
    (hscan : Lookahead.anyAtTop (·.isOneOf [.UNION, .EXCEPT]) 0
      (ts ++ (leaves parts.flatten ++ us)) = false) :
    (many (node [.setOperationPart] (joinsBy [.INTERSECT]))).Matches parts.flatten ∨
      (sequence [many (one .setOperationPart), node [.setOperationPart] misleads,
        many (one .setOperationPart)]).Matches parts.flatten := by
  induction parts generalizing ts with
  | nil => exact .inl (.many_nil _)
  | cons xs parts ih =>
    have hmore : ∀ ys ∈ parts, (one Rule.setOperationPart).Matches ys :=
      fun ys hys => hparts ys (List.mem_cons_of_mem _ hys)
    obtain ⟨n, rfl, hrule⟩ := matches_one.1 (hparts xs List.mem_cons_self)
    rw [List.flatten_cons] at hformed hscan ⊢
    have hn : n.Formed := hformed _ (List.mem_append_left _ (List.mem_singleton_self _)) n rfl
    rw [Tree.leaves_append, Tree.leaves_node, ← Node.leaves_eq, List.append_assoc] at hscan
    cases hleads : misleads n with
    | true =>
      right
      exact ⟨[], _, rfl, .many_nil _, [.node n], parts.flatten, rfl,
        ⟨n, rfl, List.mem_singleton.2 hrule, hleads⟩, parts, rfl, hmore⟩
    | false =>
      obtain ⟨t, ys, hchildren, ht⟩ := exists_setOperator hn hrule
      have hleaves : n.leaves = t :: leaves ys := by
        rw [Node.leaves_eq, hchildren]
        rfl
      have hstrong : t.isOneOf [.UNION, .EXCEPT] = false := by
        rw [hleaves, List.cons_append] at hscan
        exact hts.eq_false (Token.Plain.isPlain (p := (·.isOneOf setOperators)) ht) hscan
      have hjoins : joinsBy [.INTERSECT] n := by
        unfold joinsBy Node.tokens
        rw [hchildren]
        exact isOneOf_intersect ht hstrong
      have hfirst : (node [.setOperationPart] (joinsBy [.INTERSECT])).Matches [.node n] :=
        ⟨n, rfl, List.mem_singleton.2 hrule, hjoins⟩
      have htransparent := transparent_of_formed hn (by rw [hrule]; rfl) hleads
      rw [← List.append_assoc] at hscan
      obtain h | h := ih (hts.append htransparent) hmore
        (fun e he => hformed e (List.mem_append_right _ he)) hscan
      · left
        obtain ⟨items, heq, hitems⟩ := h
        exact ⟨[.node n] :: items, by rw [heq, List.flatten_cons],
          List.forall_mem_cons.2 ⟨hfirst, hitems⟩⟩
      · right
        obtain ⟨_, zs, heq, ⟨items, rfl, hitems⟩, hzs⟩ := h
        refine ⟨([.node n] :: items).flatten, zs, by rw [heq]; rfl,
          ⟨_, rfl, List.forall_mem_cons.2 ⟨?_, hitems⟩⟩, hzs⟩
        exact matches_one.2 ⟨n, rfl, hrule⟩

theorem operation_of_scan
    (hscan : Lookahead.anyAtTop (·.isOneOf [.UNION, .EXCEPT]) 0 (leaves es ++ us) = false)
    (hformed : ∀ e ∈ es, e.Formed)
    (h : (sequence [oneIn setPrimaries, many (one .setOperationPart), tailShape]).Matches es) :
    (operationShape (oneIn setPrimaries) [.INTERSECT] ||| misledShape).Matches es := by
  obtain ⟨_, _, rfl, hoperand, _, tail, rfl, ⟨parts, rfl, hparts⟩, htail⟩ := h
  obtain ⟨n, rfl, hrule⟩ := matches_oneIn.1 hoperand
  have hn : n.Formed := hformed _ (List.mem_append_left _ (List.mem_singleton_self _)) n rfl
  cases hleads : misleads n with
  | true =>
    right
    left
    exact ⟨[.node n], _, rfl, ⟨n, rfl, hrule, hleads⟩, _, tail, rfl, ⟨parts, rfl, hparts⟩, htail⟩
  | false =>
    have hinner : isInner n.rule := by
      have hall : setPrimaries.all isInner := by decide
      exact List.all_eq_true.1 hall _ hrule
    rw [Tree.leaves_append, Tree.leaves_node, ← Node.leaves_eq, List.append_assoc,
      Tree.leaves_append, List.append_assoc] at hscan
    obtain hall | hmisled := parts_of_scan (transparent_of_formed hn hinner hleads) hparts
      (fun e he => hformed e (List.mem_append_right _ (List.mem_append_left _ he))) hscan
    · left
      exact ⟨[.node n], _, rfl, hoperand, _, tail, rfl, hall, htail⟩
    · right
      right
      obtain ⟨xs, _, heq, hxs, ys, zs, rfl, hys, hzs⟩ := hmisled
      refine ⟨[.node n], _, rfl, hoperand, xs, ys ++ (zs ++ tail), ?_, hxs, ys, zs ++ tail, rfl, hys,
        zs, tail, rfl, hzs, htail⟩
      rw [heq, List.append_assoc, List.append_assoc]

end SqlScript.Postgres
