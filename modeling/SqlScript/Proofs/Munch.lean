import SqlScript.Proofs.Excised.Tokens

/-!
Which operator is taken where any run of operator characters may be one: the longest that ends
properly among what stands in front of the first comment.
-/

namespace SqlScript.Token

def startsMark (cs : List Char) : Bool :=
  commentMarks.any (·.isPrefixOf cs)

def upTo (p : List Char → Bool) : List Char → List Char
  | [] => []
  | c :: cs => if p (c :: cs) then [] else c :: upTo p cs

/--
The operator characters that a text starts with, up to the first comment among them.
-/
def operatorRun (cs : List Char) : List Char :=
  upTo startsMark (cs.takeWhile isOperatorChar)

/--
May an operator end like this? One that ends in a sign must hold a character that allows it, or be
nothing but the sign.
-/
def EndsProperly (op : List Char) : Prop :=
  op.length = 1 ∨ (op.getLast? ≠ some '+' ∧ op.getLast? ≠ some '-') ∨ op.any allowsSignEnd

/--
The longest of the prefixes that satisfy `P`.
-/
structure LongestPrefix (P : List Char → Prop) (op run : List Char) : Prop where
  isPrefix : op <+: run
  holds : P op
  length_le : ∀ other, other <+: run → P other → other.length ≤ op.length

variable {p : List Char → Bool} {mark run cs : List Char} {c : Char}

theorem upTo_cons_of_not (h : ¬p (c :: cs)) : upTo p (c :: cs) = c :: upTo p cs := by
  rw [upTo, if_neg h]

theorem indexOf?_upTo (hmark : mark ≠ []) (n : Nat) (cs : List Char) :
    indexOf? mark n cs = none ∧ upTo mark.isPrefixOf cs = cs ∨
      ∃ m, indexOf? mark n cs = some (n + m) ∧ upTo mark.isPrefixOf cs = cs.take m := by
  induction cs generalizing n with
  | nil =>
    left
    simp [indexOf?, upTo, hmark]
  | cons c cs ih =>
    rw [indexOf?, upTo]
    by_cases hpre : mark.isPrefixOf (c :: cs)
    · rw [if_pos hpre, if_pos hpre]
      exact .inr ⟨0, rfl, rfl⟩
    · rw [if_neg hpre, if_neg hpre]
      obtain ⟨hindex, hupTo⟩ | ⟨m, hindex, hupTo⟩ := ih (n + 1)
      · exact .inl ⟨hindex, by rw [hupTo]⟩
      · refine .inr ⟨m + 1, ?_, by rw [hupTo, List.take_succ_cons]⟩
        rw [hindex]
        congr 1
        omega

theorem cutAt_eq_upTo (hmark : mark ≠ []) (hstart : ¬mark <+: run) :
    cutAt mark run = upTo mark.isPrefixOf run := by
  unfold cutAt
  obtain ⟨hindex, hupTo⟩ | ⟨m, hindex, hupTo⟩ := indexOf?_upTo hmark 0 run
  · rw [hindex, hupTo]
  · rw [Nat.zero_add] at hindex
    have hpos : 0 < m := by
      apply Nat.pos_of_ne_zero
      rintro rfl
      obtain ⟨front, back, rfl, hzero, -⟩ := indexOf?_cut hindex
      rw [Nat.zero_add] at hzero
      rw [List.eq_nil_of_length_eq_zero hzero.symm, List.nil_append] at hstart
      exact hstart (List.prefix_append _ _)
    rw [hindex, hupTo]
    exact if_pos hpos

theorem slash_upTo_dashes (c : Char) (cs : List Char) :
    ['/', '*'].isPrefixOf (c :: upTo ['-', '-'].isPrefixOf cs) = ['/', '*'].isPrefixOf (c :: cs) := by
  cases cs with
  | nil => rfl
  | cons next rest =>
    by_cases h : ['-', '-'].isPrefixOf (next :: rest)
    · have hnext : next = '-' := by
        simp [List.isPrefixOf] at h
        exact h.1.symm
      rw [upTo, if_pos h, hnext]
      simp [List.isPrefixOf]
    · rw [upTo_cons_of_not h]
      simp [List.isPrefixOf]

theorem upTo_upTo (cs : List Char) :
    upTo ['/', '*'].isPrefixOf (upTo ['-', '-'].isPrefixOf cs) = upTo startsMark cs := by
  induction cs with
  | nil => rfl
  | cons c cs ih =>
    by_cases hdashes : ['-', '-'].isPrefixOf (c :: cs)
    · have hmark : startsMark (c :: cs) := by simp [startsMark, commentMarks, hdashes]
      rw [upTo, if_pos hdashes, upTo, upTo, if_pos hmark]
    · have hmark : startsMark (c :: cs) = ['/', '*'].isPrefixOf (c :: cs) := by
        simp [startsMark, commentMarks, hdashes]
      rw [upTo_cons_of_not hdashes]
      conv => lhs; rw [upTo]
      conv => rhs; rw [upTo]
      rw [slash_upTo_dashes, hmark, ih]

theorem cutAt_cutAt (hdashes : ¬['-', '-'] <+: run) (hslash : ¬['/', '*'] <+: run) :
    cutAt ['/', '*'] (cutAt ['-', '-'] run) = upTo startsMark run := by
  have hcut := cutAt_eq_upTo (by simp) hdashes
  have hstart : ¬['/', '*'] <+: cutAt ['-', '-'] run :=
    fun h => hslash (h.trans (isPrefix_cutAt _ _))
  rw [cutAt_eq_upTo (by simp) hstart, hcut, upTo_upTo]

theorem dropSigns_head {cs : List Char} (h : cs ≠ []) :
    (dropSigns cs).length = 1 ∨
      ((dropSigns cs).head? ≠ some '+' ∧ (dropSigns cs).head? ≠ some '-') := by
  fun_induction dropSigns cs with
  | case1 c next rest hsign ih => exact ih (List.cons_ne_nil _ _)
  | case2 c next rest hsign =>
    right
    simpa [not_or] using hsign
  | case3 cs hshort =>
    left
    cases cs with
    | nil => contradiction
    | cons c rest =>
      cases rest with
      | nil => rfl
      | cons next rest => exact absurd rfl (hshort c next rest)

theorem trimSigns_longest (hrun : run ≠ []) : LongestPrefix EndsProperly (trimSigns run) run := by
  refine ⟨isPrefix_trimSigns run, ?_, ?_⟩
  · by_cases hany : run.any allowsSignEnd
    · have htrim : trimSigns run = run := if_pos hany
      exact .inr (.inr (by rw [htrim]; exact hany))
    · have htrim : trimSigns run = (dropSigns run.reverse).reverse := if_neg hany
      unfold EndsProperly
      rw [htrim, List.length_reverse, List.getLast?_reverse]
      exact (dropSigns_head (List.reverse_ne_nil_iff.2 hrun)).imp_right .inl
  · intro other hother hends
    by_cases hany : run.any allowsSignEnd
    · have htrim : trimSigns run = run := if_pos hany
      rw [htrim]
      exact hother.length_le
    · have htrim : trimSigns run = (dropSigns run.reverse).reverse := if_neg hany
      have hop : 0 < (trimSigns run).length := by
        rw [htrim, List.length_reverse]
        exact List.length_pos_iff.2 (dropSigns_ne_nil (List.reverse_ne_nil_iff.2 hrun))
      obtain ⟨signs, hsigns, hreverse⟩ := exists_signs run.reverse
      have hsplit : run = trimSigns run ++ signs.reverse := by
        rw [htrim, ← List.reverse_append, ← hreverse, List.reverse_reverse]
      apply Nat.le_of_not_lt
      intro hlt
      -- A longer prefix ends in one of the signs, and nothing in the run allows that.
      obtain ⟨more, hmore⟩ : trimSigns run <+: other :=
        List.prefix_of_prefix_length_le (isPrefix_trimSigns run) hother (Nat.le_of_lt hlt)
      have hne : more ≠ [] := by
        rintro rfl
        rw [← hmore, List.append_nil] at hlt
        exact Nat.lt_irrefl _ hlt
      have hlast : other.getLast? = some (more.getLast hne) := by
        rw [← hmore, List.getLast?_append, List.getLast?_eq_some_getLast hne, Option.some_or]
      have hmem : more.getLast hne ∈ signs := by
        rw [hsplit, ← hmore, List.prefix_append_right_inj] at hother
        exact List.mem_reverse.1 (hother.subset (List.getLast_mem hne))
      have hsign := hsigns _ hmem
      rw [Bool.or_eq_true, beq_iff_eq, beq_iff_eq] at hsign
      obtain hone | ⟨hplus, hminus⟩ | hallows := hends
      · omega
      · rw [hlast] at hplus hminus
        obtain h | h := hsign
        · exact hplus (congrArg some h)
        · exact hminus (congrArg some h)
      · obtain ⟨c, hc, hallows⟩ := List.any_eq_true.1 hallows
        exact hany (List.any_eq_true.2 ⟨c, hother.subset hc, hallows⟩)

theorem munch_longest (hrun : run ≠ []) (hdashes : ¬['-', '-'] <+: run)
    (hslash : ¬['/', '*'] <+: run) :
    upTo startsMark run ≠ [] ∧ LongestPrefix EndsProperly (munch run) (upTo startsMark run) := by
  have hne : upTo startsMark run ≠ [] := by
    cases run with
    | nil => contradiction
    | cons c cs =>
      have hmark : ¬startsMark (c :: cs) := by
        simp [startsMark, commentMarks, List.isPrefixOf_iff_prefix, hdashes, hslash]
      rw [upTo_cons_of_not hmark]
      exact List.cons_ne_nil _ _
  unfold munch
  rw [cutAt_cutAt hdashes hslash]
  exact ⟨hne, trimSigns_longest hne⟩

/--
Where a token starts with an operator character, and not with a comment that nothing closes, it is
the longest operator that ends properly in front of the first comment among the operator characters
there.
-/
theorem tokenize_operator (source : String) :
    ∀ t ∈ tokenize .postgreSql source, ∀ front c rest, source.toList = front ++ c :: rest →
      byteLength front = t.span.start → isOperatorChar c → ¬['/', '*'] <+: c :: rest →
        operatorRun (c :: rest) ≠ [] ∧
          ∃ op, LongestPrefix EndsProperly op (operatorRun (c :: rest)) ∧
            t.span = ⟨byteLength front, byteLength (front ++ op)⟩ := by
  intro t ht front c rest hsource hstart hc hopen
  obtain ⟨ts, hts, -⟩ := exists_tokenize .postgreSql source
  rw [hts, List.mem_append, List.mem_singleton] at ht
  obtain ht | rfl := ht
  · obtain ⟨behind, c', rest', glued, hbehind, hgap, rfl⟩ := stands_of_tokenize hts t ht
    obtain ⟨rfl, heq⟩ := append_inj_of_byteLength (hsource.symm.trans hbehind) hstart
    cases heq
    have hdashes := not_dashes_of_gapItem? rfl hgap
    have hcomment : ¬(c = '/' ∧ rest.head? = some '*') := by
      rintro ⟨rfl, hstar⟩
      obtain ⟨rest, rfl⟩ := List.head?_eq_some_iff.1 hstar
      exact hopen ⟨rest, rfl⟩
    have hlexeme := lexeme_operator (sharp_ofFlavor .postgreSql) rfl glued hc hcomment
    have hprefix := List.takeWhile_prefix (l := c :: rest) isOperatorChar
    have hrun : (c :: rest).takeWhile isOperatorChar ≠ [] := by simp [hc]
    obtain ⟨hne, hlongest⟩ := munch_longest hrun (fun h => hdashes (h.trans hprefix))
      fun h => hopen (h.trans hprefix)
    refine ⟨hne, _, hlongest, ?_⟩
    have hop := (isPrefix_munch _).trans hprefix
    have hpos := List.length_pos_iff.2 (munch_ne_nil hrun)
    have htake : c :: rest.take (customOperator c rest).more =
        munch ((c :: rest).takeWhile isOperatorChar) := by
      rw [← List.take_succ_cons, more_customOperator, Nat.sub_add_cancel hpos]
      exact (List.prefix_iff_eq_take.1 hop).symm
    change Span.mk (byteLength front) (byteLength (front ++ c :: rest.take
      (lexeme .postgreSql glued c rest).more)) = _
    rw [show Dialect.postgreSql = .ofFlavor .postgreSql from rfl, hlexeme, htake]
  · have hsize := congrArg byteLength hsource
    have hpos := c.utf8Size_pos
    have hstart : byteLength front = source.utf8ByteSize := hstart
    rw [byteLength_toList, byteLength_append, byteLength_cons] at hsize
    omega

/-- The run ends in front of the comment, the operator in front of the signs. -/
theorem tokenize_operator_signs :
    ⟨.operator, 1, 3⟩ ∈ tokenize .postgreSql "a*/-+--b" ∧
      "a*/-+--b".toList = ['a'] ++ '*' :: "/-+--b".toList ∧ byteLength ['a'] = 1 ∧
      isOperatorChar '*' ∧ ¬['/', '*'] <+: '*' :: "/-+--b".toList ∧
      operatorRun ('*' :: "/-+--b".toList) = "*/-+".toList ∧
      operatorRun ('*' :: "/-+--b".toList) ≠ [] ∧
        ∃ op, LongestPrefix EndsProperly op (operatorRun ('*' :: "/-+--b".toList)) ∧
          (⟨1, 3⟩ : Span) = ⟨byteLength ['a'], byteLength (['a'] ++ op)⟩ := by
  have ht : ⟨.operator, 1, 3⟩ ∈ tokenize .postgreSql "a*/-+--b" := by decide +kernel
  have hsource : "a*/-+--b".toList = ['a'] ++ '*' :: "/-+--b".toList := by decide
  have hopen : ¬['/', '*'] <+: '*' :: "/-+--b".toList := by decide
  refine ⟨ht, hsource, rfl, by decide, hopen, by decide, ?_⟩
  exact tokenize_operator _ _ ht _ _ _ hsource rfl (by decide) hopen

end SqlScript.Token
