import SqlScript.Proofs.Balance
import SqlScript.Proofs.Reading

/-!
Set operations of PostgreSQL. `INTERSECT` binds more strongly than `UNION` and `EXCEPT`, which bind
alike and to the left.
-/

namespace SqlScript.Postgres

open SqlScript.Shape
open SqlScript.Tree (Element Node nodesOf)

/--
The production is a set operation with operands in source order. Its operators bind alike, and those
of an operation that is one of its operands bind more strongly.
-/
structure SetOperation (n : Node Rule) : Prop where
  /-- An operand, parts of one operator and one operand each, and what sorts, limits and locks. -/
  layout : ∃ operand parts tail, n.childNodes = operand :: (parts ++ tail) ∧
    operand.rule ∈ setOperands ∧
    (∀ part ∈ parts, part.rule = .setOperationPart ∧ joinsBy setOperators part ∧
      ∃ m, part.childNodes = [m] ∧ m.rule ∈ setOperands) ∧
    ∀ m ∈ tail, m.rule ∈ [.sortClause, .selectLimit, .forLockingClause]
  ordered : n.childNodes.Pairwise fun m k => m.span.stop ≤ k.span.start
  alike : ¬ ∃ part ∈ n.childrenOf .setOperationPart, ∃ part' ∈ n.childrenOf .setOperationPart,
    joinsBy [.INTERSECT] part ∧ joinsBy [.UNION, .EXCEPT] part'
  tight {m : Node Rule} : (m ∈ n.childNodes ∨
    ∃ part ∈ n.childrenOf .setOperationPart, m ∈ part.childNodes) →
      m.rule = .setOperationSelect → intersects m

def delimiters : List TokenKind :=
  [.leftParen, .rightParen, .leftBracket, .rightBracket]

section

variable {n m : Node Rule}

theorem exists_using (hrule : n.rule = .sortBy) {t : Token} (ht : unseen? n = some t) :
    ∃ word rest, n.tokens = word :: t :: rest ∧ word.isKeyword .USING := by
  unfold unseen? at ht
  split at ht
  · rename_i word _ rest _ htokens
    split at ht
    · rename_i hword
      cases ht
      exact ⟨word, rest, htokens, hword⟩
    · contradiction
  · rename_i hinsert _
    rw [hrule] at hinsert
    contradiction
  · contradiction

theorem tokens_cons {ys : List (Element Rule)} {u : Token} {us : List Token}
    (hys : (opt tokens).Matches ys) (hus : ys.filterMap Element.token? = u :: us) :
    u.kind ≠ .semicolon ∧ (u.kind.isPlain → ∃ zs, (opt tokens : Shape Rule).Matches zs ∧
      zs.filterMap Element.token? = us) := by
  obtain rfl | ⟨hnodes, hpaired⟩ := hys
  · contradiction
  cases ys with
  | nil => contradiction
  | cons e zs =>
    obtain ⟨he, hzs⟩ := List.forall_mem_cons.1 hnodes
    cases e with
    | node m => contradiction
    | token v =>
      cases hus
      refine ⟨hpaired.head_ne_separator, fun hplain => ⟨zs, .inr ⟨hzs, ?_⟩, rfl⟩⟩
      cases hpaired with
      | plain _ h => exact h
      | group ho =>
        exact absurd hplain (TokenKind.not_isPlain_of_closer? (Option.isSome_of_mem ho))

theorem unseen?_ne_semicolon (hchildren : (shape .sortBy).Matches n.children)
    (hrule : n.rule = .sortBy) {t : Token} (ht : unseen? n = some t) : t.kind ≠ .semicolon := by
  obtain ⟨word, rest, htokens, hword⟩ := exists_using hrule ht
  obtain ⟨_, _, heq, ⟨key, rfl, -⟩, xs, ys, rfl, hxs, hys⟩ := hchildren
  have hall : xs.filterMap Element.token? ++ ys.filterMap Element.token? = word :: t :: rest := by
    rw [← List.filterMap_append, ← htokens]
    unfold Node.tokens
    rw [heq]
    rfl
  obtain ⟨u, rfl, hu⟩ | rfl | ⟨_, _, rfl, ⟨u, rfl, hu⟩, rfl | ⟨v, rfl, hv⟩⟩ := hxs
  · have hu' : u = word := (List.cons.inj hall).1
    subst hu'
    have hkeyword : u.keyword? = some .USING := eq_of_beq hword
    simp [Token.isOneOf, hkeyword] at hu
  · have hplain : word.kind.isPlain := Token.Plain.isPlain (p := (·.isKeyword .USING)) hword
    obtain ⟨zs, hzs, hrest⟩ := (tokens_cons hys hall).2 hplain
    exact (tokens_cons hzs hrest).1
  · exact (tokens_cons hys (List.cons.inj hall).2).1
  · have hv' : v = t := (List.cons.inj (List.cons.inj hall).2).1
    subst hv'
    intro hsemicolon
    simp [hsemicolon, TokenKind.alike] at hv

theorem misleads_eq_false (hn : n.Formed) (hinner : isInner n.rule)
    (hsort : ∀ m, n.Contains m → m.rule = .sortBy →
      (unseen? m).all fun t => !delimiters.contains t.kind) : misleads n = false := by
  unfold misleads
  rw [Bool.not_eq_false']
  apply Node.all_of_contains
  intro m hm
  rw [Option.all_eq_true]
  intro t ht
  have hrule : m.rule = .sortBy := by
    have hm := isInner_of_contains hn hinner hm
    unfold unseen? at ht
    split at ht
    · assumption
    · rename_i hinsert _
      rw [hinsert] at hm
      contradiction
    · contradiction
  have hdelimiter := (Option.all_eq_true _ _).1 (hsort m hm hrule) t ht
  have hsemicolon := unseen?_ne_semicolon (hrule ▸ hn m hm) hrule ht
  unfold TokenKind.isPlain
  split
  all_goals simp_all [delimiters]

theorem operation_matches (hn : n.Formed) (hrule : n.rule = .setOperationSelect)
    (hsort : ∀ m, n.Contains m → m.rule = .sortBy →
      (unseen? m).all fun t => !delimiters.contains t.kind) :
    ∃ words, (words = [.UNION, .EXCEPT] ∨ words = [.INTERSECT]) ∧
      (operationShape setTermShape words).Matches n.children := by
  have hinner : isInner n.rule := by
    rw [hrule]
    rfl
  have hclear : ∀ m, .node m ∈ n.children → misleads m = false := by
    intro m hm
    have hmem : m ∈ n.childNodes := List.mem_filterMap.2 ⟨_, hm, rfl⟩
    apply misleads_eq_false (hn.child hmem)
    · exact isInner_of_contains hn hinner (.child hmem (.refl m))
    · exact fun k hk => hsort k (.child hmem hk)
  have h := hn.matches_children
  rw [hrule] at h
  obtain (h | h) | ⟨_, _, heq, ⟨m, rfl, -, hleads⟩, -⟩ |
    ⟨_, _, heq, -, xs, _, rfl, -, _, ys, rfl, ⟨m, rfl, -, hleads⟩, -⟩ := h
  · exact ⟨_, .inl rfl, h⟩
  · exact ⟨_, .inr rfl, Within.append (fun _ => Or.inl) (.refl _) h⟩
  · rw [hclear m (by simp [heq])] at hleads
    contradiction
  · rw [hclear m (by simp [heq])] at hleads
    contradiction

theorem exists_setTerm {es : List (Element Rule)} (h : setTermShape.Matches es) :
    ∃ m, es = [.node m] ∧ m.rule ∈ setOperands ∧ (m.rule = .setOperationSelect → intersects m) := by
  obtain h | ⟨m, rfl, hrule, hm⟩ := h
  · obtain ⟨m, rfl, hrule⟩ := matches_oneIn.1 h
    have hsub : setPrimaries ⊆ setOperands := by decide
    refine ⟨m, rfl, hsub hrule, fun hm => ?_⟩
    rw [hm] at hrule
    contradiction
  · have hrule' : m.rule = .setOperationSelect := List.mem_singleton.1 hrule
    exact ⟨m, rfl, by rw [hrule']; decide, fun _ => hm⟩

theorem exists_operand (hn : n.Formed) (hrule : n.rule = .setOperationPart) :
    ∃ m, n.childNodes = [m] ∧ m.rule ∈ setOperands ∧
      (m.rule = .setOperationSelect → intersects m) := by
  have h := hn.matches_children
  rw [hrule] at h
  obtain ⟨_, _, heq, ⟨t, rfl, -⟩, ys, zs, rfl, hys, hzs⟩ := h
  obtain ⟨m, rfl, hm⟩ := exists_setTerm hzs
  refine ⟨m, ?_, hm⟩
  rw [Node.childNodes_eq, heq]
  obtain rfl | ⟨u, rfl, -⟩ := hys
  · rfl
  · rfl

theorem joinsBy_mono {words words' : List Keyword} (hwords : words ⊆ words')
    (h : joinsBy words n) : joinsBy words' n := by
  unfold joinsBy at *
  rw [Option.any_eq_true] at *
  obtain ⟨t, ht, hword⟩ := h
  refine ⟨t, ht, ?_⟩
  unfold Token.isOneOf at *
  split at hword
  · simp only [List.contains_eq_mem, decide_eq_true_eq] at hword ⊢
    exact hwords hword
  · contradiction

theorem joinsBy_disjoint (h : joinsBy [.INTERSECT] n) : ¬ joinsBy [.UNION, .EXCEPT] n := by
  unfold joinsBy Token.isOneOf at *
  cases hfirst : n.tokens.head? with
  | none => simp [hfirst] at h
  | some t => cases hword : t.keyword? <;> simp_all

theorem setOperation_of_formed (hn : n.Formed) (hrule : n.rule = .setOperationSelect)
    (hordered : n.childNodes.Pairwise fun m k => m.span.stop ≤ k.span.start)
    (hsort : ∀ m, n.Contains m → m.rule = .sortBy →
      (unseen? m).all fun t => !delimiters.contains t.kind) : SetOperation n := by
  obtain ⟨words, hwords, xs, _, heq, hxs, ys, zs, rfl, hys, hzs⟩ := operation_matches hn hrule hsort
  obtain ⟨operand, rfl, hoperand, htight⟩ := exists_setTerm hxs
  have hnodes : n.childNodes = operand :: (nodesOf ys ++ nodesOf zs) := by
    rw [Node.childNodes_eq, heq, Tree.nodesOf_append, Tree.nodesOf_append]
    rfl
  have hparts : ∀ part ∈ nodesOf ys, part.rule = .setOperationPart ∧ joinsBy words part := by
    intro part hpart
    obtain ⟨hpart, hjoins⟩ := hys.of_mem_many hpart
    exact ⟨List.mem_singleton.1 hpart, hjoins⟩
  have htail : ∀ m ∈ nodesOf zs, m.rule ∈ [.sortClause, .selectLimit, .forLockingClause] :=
    fun m hm => hzs.rule_mem hm
  have hchild : ∀ m ∈ n.childNodes, m = operand ∨ m ∈ nodesOf ys ∨ m ∈ nodesOf zs := by
    intro m hm
    rw [hnodes] at hm
    simpa using hm
  have hjoins : ∀ part ∈ n.childrenOf .setOperationPart, joinsBy words part := by
    intro part hpart
    obtain ⟨hmem, hkind⟩ := List.mem_filter.1 hpart
    have hkind : part.rule = .setOperationPart := eq_of_beq hkind
    obtain rfl | hmem | hmem := hchild part hmem
    · rw [hkind] at hoperand
      contradiction
    · exact (hparts part hmem).2
    · have htail := htail part hmem
      rw [hkind] at htail
      contradiction
  have hsub : words ⊆ setOperators := by
    obtain rfl | rfl := hwords <;> decide
  refine ⟨⟨operand, nodesOf ys, nodesOf zs, hnodes, hoperand, ?_, htail⟩, hordered, ?_, ?_⟩
  · intro part hpart
    obtain ⟨hkind, hpart'⟩ := hparts part hpart
    have hmem : part ∈ n.childNodes := by
      rw [hnodes]
      exact List.mem_cons_of_mem _ (List.mem_append_left _ hpart)
    obtain ⟨m, hm, hm', -⟩ := exists_operand (hn.child hmem) hkind
    exact ⟨hkind, joinsBy_mono hsub hpart', m, hm, hm'⟩
  · rintro ⟨part, hpart, part', hpart', hstrong, hweak⟩
    obtain rfl | rfl := hwords
    · exact joinsBy_disjoint hstrong (hjoins part hpart)
    · exact joinsBy_disjoint (hjoins part' hpart') hweak
  · rintro m (hm | ⟨part, hpart, hm⟩) hkind
    · obtain rfl | hm | hm := hchild m hm
      · exact htight hkind
      · have hpart := (hparts m hm).1
        rw [hkind] at hpart
        contradiction
      · have htail := htail m hm
        rw [hkind] at htail
        contradiction
    · obtain ⟨hmem, hpart⟩ := List.mem_filter.1 hpart
      obtain ⟨k, hk, -, hk'⟩ := exists_operand (hn.child hmem) (eq_of_beq hpart)
      rw [hk, List.mem_singleton] at hm
      subst hm
      exact hk' hkind

end

variable {source : String} {options : Options} {tree : SyntaxTree Rule}

theorem parseTree_setOperations (htree : parseTree source options = .ok tree)
    (hsort : ∀ n, tree.root.Contains n → n.rule = .sortBy →
      (unseen? n).all fun t => !delimiters.contains t.kind) :
    ∀ n, tree.root.Contains n → n.rule = .setOperationSelect → SetOperation n := by
  obtain ⟨-, hformed, -⟩ := parseTree_formed htree
  have hlossless := Parser.lossless_of_parseTree (script_builds options.maxDepth) htree
  intro n hn hrule
  apply setOperation_of_formed (fun m hm => hformed m (hn.trans hm)) hrule
  · apply (hlossless.orderly hn).apart.filterMap Element.node?
    intro e f hef m hm k hk
    cases e <;> cases hm
    cases f <;> cases hk
    exact hef
  · exact fun m hm => hsort m (hn.trans hm)

theorem parseTree_setOperations_grouped :
    ∃ tree, Postgres.parseTree
        "SELECT 1 UNION SELECT 2 INTERSECT (SELECT 3 EXCEPT SELECT 4) EXCEPT SELECT 5 ORDER BY 1 USING <"
        {} = .ok tree ∧
      (∀ n, tree.root.Contains n → n.rule = .sortBy →
        (unseen? n).all fun t => !delimiters.contains t.kind) ∧
      (∀ n, tree.root.Contains n → n.rule = .setOperationSelect → SetOperation n) ∧
      ¬ ∀ n, tree.root.Contains n → n.rule ≠ .setOperationSelect := by
  have hok : (Postgres.parseTree
      "SELECT 1 UNION SELECT 2 INTERSECT (SELECT 3 EXCEPT SELECT 4) EXCEPT SELECT 5 ORDER BY 1 USING <"
      {}).toOption.any fun tree =>
        (tree.root.all fun n =>
            n.rule != .sortBy || (unseen? n).all fun t => !delimiters.contains t.kind) &&
          !tree.root.all (·.rule != .setOperationSelect) := by decide +kernel
  obtain ⟨tree, hparse, hall⟩ := exists_ok_of_any hok
  obtain ⟨hsort, hsome⟩ := (Bool.and_eq_true _ _).mp hall
  have hsort : ∀ n, tree.root.Contains n → n.rule = .sortBy →
      (unseen? n).all fun t => !delimiters.contains t.kind := by
    intro n hn hrule
    simpa [hrule] using Node.of_all hsort hn
  refine ⟨tree, hparse, hsort, parseTree_setOperations hparse hsort, fun hnone => ?_⟩
  have hnever : tree.root.all (·.rule != .setOperationSelect) :=
    Node.all_of_contains fun n hn => bne_iff_ne.2 (hnone n hn)
  simp [hnever] at hsome

end SqlScript.Postgres
