import SqlScript.Proofs.Spacing.Tokens

/-!
The tokens of a piece that is cut out of a text: what they are is told by the piece alone, if it
starts and ends with a token and neither is glued to what was cut off.
-/

namespace SqlScript

namespace Text

theorem exists_range {ranges : Array (Nat × Nat)} {code : Nat} (h : inRanges ranges code) :
    ∃ r ∈ ranges.toList, r.1 ≤ code ∧ code ≤ r.2 := by
  unfold inRanges at h
  split at h
  · rename_i low high hget
    simp only [Bool.and_eq_true, decide_eq_true_eq] at h
    exact ⟨(low, high), Array.mem_toList_iff.2 (Array.mem_of_getElem? hget), h⟩
  · contradiction

theorem not_isLetter_of_isBlank {c : Char} (h : isBlank c) : isLetter c = false := by
  have hascii : ∀ code < 128, code = 32 ∨ 9 ≤ code ∧ code ≤ 13 →
      ¬(65 ≤ code ∧ code ≤ 90 ∨ 97 ≤ code ∧ code ≤ 122) := by omega
  have htable : ∀ r ∈ blankRanges.toList, ∀ k < r.2 + 1 - r.1,
      inRanges letterRanges (r.1 + k) = false := by decide +kernel
  unfold isBlank at h
  unfold isLetter
  split at h
  · rename_i hlt
    rw [if_pos hlt, Bool.eq_false_iff]
    intro halpha
    refine hascii c.toNat hlt ?_ ?_
    · simp only [Bool.or_eq_true, Bool.and_eq_true, decide_eq_true_eq, beq_iff_eq] at h
      exact h.imp (fun hspace => by rw [hspace]; rfl) id
    · refine (Bool.or_eq_true_iff.1 halpha).imp (fun hupper => of_decide_eq_true hupper) ?_
      exact fun hlower => (Bool.and_eq_true_iff.1 hlower).imp of_decide_eq_true of_decide_eq_true
  · rename_i hge
    rw [if_neg hge]
    obtain ⟨r, hr, hlow, hhigh⟩ := exists_range h
    have := htable r hr (c.toNat - r.1) (by omega)
    rwa [Nat.add_sub_cancel' hlow] at this

end Text

namespace Token

variable {d : Dialect} {c : Char} {cs : List Char}

theorem commentEnd?_cut {nested : Bool} {depth n m : Nat}
    (h : commentEnd? nested depth n cs = some m) :
    ∃ front back, cs = front ++ back ∧ m = n + front.length ∧
      ∀ ext, commentEnd? nested depth n (front ++ ext) = some m := by
  fun_induction commentEnd? nested depth n cs with
  | case1 => contradiction
  | case2 n rest =>
    cases h
    exact ⟨['*', '/'], rest, rfl, rfl, fun ext => by simp [commentEnd?]⟩
  | case3 n rest depth ih =>
    obtain ⟨front, back, rfl, rfl, hfront⟩ := ih h
    refine ⟨'*' :: '/' :: front, back, rfl, by simp; omega, fun ext => ?_⟩
    simp only [List.cons_append, commentEnd?]
    exact hfront ext
  | case4 depth n rest hnested ih =>
    obtain ⟨front, back, rfl, rfl, hfront⟩ := ih h
    refine ⟨'/' :: '*' :: front, back, rfl, by simp; omega, fun ext => ?_⟩
    simp only [List.cons_append, commentEnd?, if_pos hnested]
    exact hfront ext
  | case5 depth n rest hnested ih =>
    obtain ⟨front, back, hrest, rfl, hfront⟩ := ih h
    cases front with
    | nil =>
      have := hfront []
      simp [commentEnd?] at this
    | cons star front =>
      cases hrest
      refine ⟨'/' :: '*' :: front, back, rfl, by simp; omega, fun ext => ?_⟩
      simp only [List.cons_append, commentEnd?, if_neg hnested]
      exact hfront ext
  | case6 depth n c cs hclose hopen ih =>
    obtain ⟨front, back, rfl, rfl, hfront⟩ := ih h
    cases front with
    | nil =>
      have := hfront []
      simp [commentEnd?] at this
    | cons next front =>
      refine ⟨c :: next :: front, back, rfl, by simp; omega, fun ext => ?_⟩
      rw [List.cons_append, List.cons_append, commentEnd?]
      · exact hfront ext
      · rintro _ rfl heq
        cases heq
        exact hclose _ rfl rfl
      · rintro _ rfl heq
        cases heq
        exact hopen _ rfl rfl

theorem startsLineComment_take_some (h : startsLineComment d (c :: cs)) {n : Nat}
    (hn : (cs.takeWhile (· ≠ '\n')).length ≤ n) : startsLineComment d (c :: cs.take n) := by
  generalize htext : c :: cs = text at h
  unfold startsLineComment at h
  split at h
  · rename_i body
    cases htext
    have hpos : 0 < n := Nat.lt_of_lt_of_le (by simp) hn
    obtain ⟨n, rfl⟩ := Nat.exists_eq_add_of_lt hpos
    rw [Nat.zero_add, List.take_succ_cons]
    cases n with
    | zero => simp [startsLineComment]
    | succ n =>
      cases body with
      | nil => exact h
      | cons next body => exact h
  · cases htext
    exact h
  · contradiction

theorem gapItem?_take_some {more : Nat} (h : gapItem? d c cs = some more) {n : Nat}
    (hn : more ≤ n) : gapItem? d c (cs.take n) = some more := by
  unfold gapItem? at h ⊢
  split at h
  · rename_i hblank
    rw [if_pos hblank]
    exact h
  · rename_i hblank
    rw [if_neg hblank]
    split at h
    · rename_i hline
      cases h
      rw [if_pos (startsLineComment_take_some hline hn), takeWhile_take hn]
    · rename_i hline
      split at h
      · rename_i rest hslash
        obtain ⟨front, back, rfl, rfl, hfront⟩ := commentEnd?_cut h
        obtain ⟨n, rfl⟩ := Nat.exists_eq_add_of_le (Nat.le_of_add_right_le hn)
        have hn : front.length ≤ n := by omega
        obtain ⟨k, rfl⟩ := Nat.exists_eq_add_of_le hn
        rw [Nat.add_comm 1, List.take_succ_cons, List.take_length_add_append]
        have hstart : startsLineComment d ('/' :: '*' :: (front ++ back.take k)) = false := rfl
        rw [hstart]
        exact hfront _
      · contradiction

theorem gapLength_take {glued : Bool} {c : Char} {cs rest : List Char} {n : Nat}
    (h : cs.drop (gapLength d cs) = c :: rest) (hvalid : (lexeme d glued c rest).kind.isValid)
    (hdashes : d.dashCommentNeedsSpace → c :: rest.take n ≠ ['-', '-']) :
    gapLength d (cs.take (gapLength d cs + 1 + n)) = gapLength d cs := by
  induction hlen : cs.length using Nat.strongRecOn generalizing cs with
  | ind m ih =>
  cases cs with
  | nil => simp at h
  | cons a cs =>
    cases hitem : gapItem? d a cs with
    | none =>
      rw [gapLength_none hitem, List.drop_zero] at h
      cases h
      rw [gapLength_none hitem, Nat.zero_add, Nat.add_comm, List.take_succ_cons,
        gapLength_none (gapItem?_take hitem hvalid hdashes)]
    | some more =>
      have hgap := gapLength_some hitem
      rw [hgap, Nat.add_comm more 1, Nat.add_assoc, Nat.add_comm 1, List.drop_succ_cons,
        ← List.drop_drop] at h
      rw [List.length_cons] at hlen
      have hrest := ih _ (by rw [List.length_drop]; omega) h rfl
      have hcut : gapLength d (a :: cs) + 1 + n =
          more + (gapLength d (cs.drop more) + 1 + n) + 1 := by
        omega
      rw [hcut, List.take_succ_cons, gapLength_some (gapItem?_take_some hitem (by omega)),
        List.drop_take, Nat.add_sub_cancel_left, hrest, hgap]

/--
A dialect with operators of its own: their characters start nothing else, and two signs are always a
comment.
-/
def Sharp (d : Dialect) : Prop :=
  d.customOperators →
    d.identifierQuote ≠ '\x60' ∧ d.atVariables = false ∧ d.dashCommentNeedsSpace = false

theorem sharp_ofFlavor (flavor : Flavor) : Sharp (.ofFlavor flavor) := by
  cases flavor with
  | mySql => exact fun h => absurd h (by decide)
  | postgreSql => exact fun _ => by decide

theorem lexeme_operator (hd : Sharp d) (hcustom : d.customOperators) (glued : Bool)
    (hc : isOperatorChar c) (hcomment : ¬(c = '/' ∧ cs.head? = some '*')) :
    lexeme d glued c cs = customOperator c cs := by
  obtain ⟨hquote, hvariable, -⟩ := hd hcustom
  have hslash : (c == '/' && cs.head? == some '*') = false := by
    simpa [Bool.eq_false_iff] using hcomment
  have hc' := hc
  simp only [isOperatorChar, allowsSignEnd, List.contains_cons, List.contains_nil, Bool.or_false,
    Bool.or_eq_true, beq_iff_eq] at hc'
  unfold lexeme
  rw [hslash, if_pos hc, if_pos hcustom]
  obtain (rfl | rfl | rfl | rfl | rfl | rfl | rfl) |
    (rfl | rfl | rfl | rfl | rfl | rfl | rfl | rfl | rfl | rfl) := hc' <;>
    simp [delimiter?, Text.isLetter, hquote, hvariable]

theorem exists_indexOf? {pattern : List Char} {j : Nat} (h : pattern <+: cs.drop j) (n : Nat) :
    ∃ m ≤ n + j, indexOf? pattern n cs = some m := by
  induction cs generalizing j n with
  | nil =>
    rw [List.drop_nil, List.prefix_nil] at h
    subst h
    exact ⟨n, Nat.le_add_right _ _, rfl⟩
  | cons c cs ih =>
    rw [indexOf?]
    by_cases hpre : pattern.isPrefixOf (c :: cs)
    · rw [if_pos hpre]
      exact ⟨n, Nat.le_add_right _ _, rfl⟩
    · rw [if_neg hpre]
      cases j with
      | zero => exact absurd (List.isPrefixOf_iff_prefix.2 h) hpre
      | succ j =>
        obtain ⟨m, hm, hindex⟩ := ih h (n + 1)
        exact ⟨m, by omega, hindex⟩

theorem cutAt_cases (mark run : List Char) :
    cutAt mark run = run ∨
      ∃ m, 0 < m ∧ cutAt mark run = run.take m ∧ mark <+: run.drop m := by
  unfold cutAt
  split
  · rename_i m hindex
    split
    · rename_i hpos
      obtain ⟨front, back, hrun, hm, -⟩ := indexOf?_cut hindex
      rw [Nat.zero_add] at hm
      refine .inr ⟨m, hpos, rfl, back, ?_⟩
      rw [hrun, hm, List.append_assoc, List.drop_left]
    · exact .inl rfl
  · exact .inl rfl

/-- In front of a cut there is no mark, also none that starts there and reaches over the cut. -/
theorem not_mark_of_cutAt {mark run op : List Char} (hop : op <+: cutAt mark run) (hne : op ≠ [])
    (hstart : ¬mark <+: run) : ¬mark <+: run.drop (op.length - 1) := by
  intro hmark
  obtain ⟨m, hm, hindex⟩ := exists_indexOf? hmark 0
  have hpos : 0 < m := by
    apply Nat.pos_of_ne_zero
    rintro rfl
    obtain ⟨front, back, hrun, hzero, -⟩ := indexOf?_cut hindex
    rw [Nat.zero_add] at hzero
    rw [List.eq_nil_of_length_eq_zero hzero.symm, List.nil_append] at hrun
    exact hstart ⟨back, hrun.symm⟩
  have hcut : cutAt mark run = run.take m := by
    unfold cutAt
    rw [hindex]
    exact if_pos hpos
  rw [hcut] at hop
  have hle := hop.length_le.trans (List.length_take_le _ _)
  have hlength := List.length_pos_iff.2 hne
  omega

/-- A comment that starts with the last character of an operator would start there also if the text
ended at two signs. -/
theorem isPrefix_cutAt_dashes {run op : List Char} (hop : op <+: cutAt ['-', '-'] run)
    (hne : op ≠ []) (h : ['/', '*'] <+: run.drop (op.length - 1)) :
    ['/', '*'] <+: (cutAt ['-', '-'] run).drop (op.length - 1) := by
  obtain hrun | ⟨m, hpos, hrun, hdashes⟩ := cutAt_cases ['-', '-'] run
  · rwa [hrun]
  · rw [hrun] at hop ⊢
    have hlength := List.length_pos_iff.2 hne
    have hle := hop.length_le.trans (List.length_take_le _ _)
    rw [List.drop_take, List.prefix_take_iff]
    refine ⟨h, ?_⟩
    have hlt : op.length ≠ m := by
      rintro rfl
      -- What is behind the slash would be both a star and a sign.
      obtain ⟨rest, hstar⟩ := h
      obtain ⟨rest', hsign⟩ := hdashes
      have hdrop := congrArg (List.drop 1) hstar
      rw [List.drop_drop, Nat.sub_add_cancel hlength, ← hsign] at hdrop
      simp at hdrop
    change 2 ≤ _
    omega

theorem not_mark_of_munch {run mark : List Char} (hne : run ≠ [])
    (hstart : ∀ mark ∈ commentMarks, ¬mark <+: run) (hmem : mark ∈ commentMarks) :
    ¬mark <+: run.drop ((munch run).length - 1) := by
  have hop : munch run <+: cutAt ['/', '*'] (cutAt ['-', '-'] run) := isPrefix_trimSigns _
  have hdashes := hop.trans (isPrefix_cutAt _ _)
  have hne' := munch_ne_nil hne
  simp only [commentMarks, List.mem_cons, List.not_mem_nil, or_false] at hmem
  obtain rfl | rfl := hmem
  · exact not_mark_of_cutAt hdashes hne' (hstart _ (by simp [commentMarks]))
  · refine fun h => not_mark_of_cutAt hop hne' ?_ (isPrefix_cutAt_dashes hdashes hne' h)
    exact fun hslash => hstart _ (by simp [commentMarks]) (hslash.trans (isPrefix_cutAt _ _))

theorem isPrefix_takeWhile {p : Char → Bool} {mark : List Char} (h : mark <+: cs)
    (hmark : ∀ c ∈ mark, p c) : mark <+: cs.takeWhile p := by
  obtain ⟨rest, rfl⟩ := h
  rw [List.takeWhile_append_of_pos hmark]
  exact List.prefix_append _ _

theorem drop_takeWhile {p : Char → Bool} {n : Nat} (hn : n ≤ (cs.takeWhile p).length) :
    (cs.takeWhile p).drop n = (cs.drop n).takeWhile p := by
  induction n generalizing cs with
  | zero => rfl
  | succ n ih =>
    cases cs with
    | nil => rfl
    | cons c cs =>
      rw [List.takeWhile_cons] at hn ⊢
      split at hn
      · rename_i hc
        rw [if_pos hc]
        exact ih (Nat.le_of_succ_le_succ hn)
      · contradiction

theorem not_dashes_of_gapItem? (hspace : d.dashCommentNeedsSpace = false)
    (h : gapItem? d c cs = none) : ¬['-', '-'] <+: c :: cs := by
  rintro ⟨rest, heq⟩
  cases heq
  have hblank : Text.isBlank '-' = false := by decide
  unfold gapItem? at h
  simp [startsLineComment, hspace, hblank] at h

theorem not_mark_of_lexeme (hd : Sharp d) (hcustom : d.customOperators) {glued : Bool} {l : Lexeme}
    (hgap : gapItem? d c cs = none) (hl : lexeme d glued c cs = l) (hvalid : l.kind.isValid)
    (hc : isOperatorChar c) {mark : List Char} (hmem : mark ∈ commentMarks) :
    ¬mark <+: (c :: cs).drop l.more := by
  subst hl
  have hcomment := not_comment_of_isValid hvalid
  rw [lexeme_operator hd hcustom glued hc hcomment, more_customOperator]
  have hrun : (c :: cs).takeWhile isOperatorChar ≠ [] := by simp [hc]
  have hlength : (munch ((c :: cs).takeWhile isOperatorChar)).length - 1 ≤
      ((c :: cs).takeWhile isOperatorChar).length :=
    (Nat.sub_le _ _).trans (isPrefix_munch _).length_le
  have hstart : ∀ mark ∈ commentMarks, ¬mark <+: (c :: cs).takeWhile isOperatorChar := by
    intro mark hmem hpre
    have hpre := hpre.trans (List.takeWhile_prefix _)
    simp only [commentMarks, List.mem_cons, List.not_mem_nil, or_false] at hmem
    obtain rfl | rfl := hmem
    · exact not_dashes_of_gapItem? (hd hcustom).2.2 hgap hpre
    · obtain ⟨rest, heq⟩ := hpre
      cases heq
      exact hcomment ⟨rfl, rfl⟩
  intro hpre
  refine not_mark_of_munch hrun hstart hmem ?_
  rw [drop_takeWhile hlength]
  apply isPrefix_takeWhile hpre
  simp only [commentMarks, List.mem_cons, List.not_mem_nil, or_false] at hmem
  obtain rfl | rfl := hmem <;> simp [isOperatorChar]

/--
The tokens `us` are what the text starts with; `front` is what they and the gaps in front of them
take, `back` is left.
-/
inductive Reads (d : Dialect) :
    Nat → Option Char → List Char → List Char → List Token → Prop
  | nil (offset : Nat) (before : Option Char) (back : List Char) :
      Reads d offset before [] back []
  | cons {offset : Nat} {before : Option Char} {gap tail front back : List Char} {c : Char}
      {l : Lexeme} {us : List Token}
      (hgap : gapLength d (gap ++ c :: (tail ++ front ++ back)) = gap.length)
      (hl : lexeme d ((gap.getLast?.or before).any endsName) c (tail ++ front ++ back) = l)
      (hvalid : l.kind.isValid) (htail : tail.length = l.more)
      (h : Reads d (offset + byteLength gap + byteLength (c :: tail)) (tail.getLast?.or (some c))
        front back us) :
      Reads d offset before (gap ++ c :: (tail ++ front)) back
        (⟨l.kind, offset + byteLength gap, offset + byteLength gap + byteLength (c :: tail)⟩ :: us)

theorem exists_reads {offset : Nat} {before : Option Char} {us vs : List Token}
    (h : scan d offset before cs = us ++ vs) (hvalid : ∀ t ∈ us, t.kind.isValid) :
    ∃ front back last, cs = front ++ back ∧ Reads d offset before front back us ∧
      scan d (offset + byteLength front) last back = vs := by
  induction us generalizing offset before cs with
  | nil => exact ⟨[], cs, before, rfl, .nil _ _ _, h⟩
  | cons u us ih =>
    cases hdrop : cs.drop (gapLength d cs) with
    | nil =>
      rw [scan_nil hdrop] at h
      contradiction
    | cons c rest =>
      generalize hl : lexeme d (((cs.take (gapLength d cs)).getLast?.or before).any endsName) c rest
        = l
      rw [scan_cons rfl hdrop hl, List.cons_append] at h
      obtain ⟨rfl, hrest⟩ := List.cons.inj h
      obtain ⟨hkind, hvalid⟩ := List.forall_mem_cons.1 hvalid
      have hmore : l.more ≤ rest.length := by
        have hblank := lexeme_blank (d := d) (show Char.isWhitespace ' ' by decide)
          (((cs.take (gapLength d cs)).getLast?.or before).any endsName) c rest []
        rw [hl] at hblank
        exact (hblank hkind).2
      obtain ⟨front, back, last, hfront, hreads, hscan⟩ := ih hrest hvalid
      have hcs : cs = cs.take (gapLength d cs) ++ c :: (rest.take l.more ++ front ++ back) := by
        rw [List.append_assoc, ← hfront, List.take_append_drop, ← hdrop, List.take_append_drop]
      have hrest' : rest = rest.take l.more ++ front ++ back := by
        rw [List.append_assoc, ← hfront, List.take_append_drop]
      have hlength : (cs.take (gapLength d cs)).length = gapLength d cs := by
        have := congrArg List.length hdrop
        simp at this ⊢
        omega
      refine ⟨cs.take (gapLength d cs) ++ c :: (rest.take l.more ++ front), back, last, ?_,
        .cons ?_ ?_ hkind ?_ hreads, ?_⟩
      · conv => lhs; rw [hcs]
        simp
      · rw [← hcs, hlength]
      · rw [← hrest', hl]
      · exact List.length_take_of_le hmore
      · rw [← hscan]
        congr 1
        simp [Nat.add_assoc]

variable {offset : Nat} {before : Option Char} {front back : List Char} {us : List Token}

theorem Reads.stopOf_eq (h : Reads d offset before front back us) :
    stopOf offset us = offset + byteLength front := by
  induction h with
  | nil offset before back => rfl
  | cons hgap hl hvalid htail h ih =>
    rw [stopOf_cons, ih]
    simp [Nat.add_assoc]

theorem drop_gap {gap rest : List Char} (h : gapLength d (gap ++ c :: rest) = gap.length) :
    (gap ++ c :: rest).drop (gapLength d (gap ++ c :: rest)) = c :: rest := by
  rw [h, List.drop_left]

theorem take_gap {gap rest : List Char} (h : gapLength d (gap ++ c :: rest) = gap.length) :
    (gap ++ c :: rest).take (gapLength d (gap ++ c :: rest)) = gap := by
  rw [h, List.take_left]

theorem Reads.ne_nil (h : Reads d offset before front back us) (hne : us ≠ []) : front ≠ [] := by
  cases h with
  | nil => contradiction
  | cons => exact List.append_ne_nil_of_right_ne_nil _ (List.cons_ne_nil _ _)

theorem drop_cons_append {tail : List Char} (hne : front ≠ []) :
    (c :: (tail ++ front ++ back)).drop (tail.length + front.length) =
      (front ++ back).drop (front.length - 1) := by
  have hpos := List.length_pos_iff.2 hne
  have hlength : tail.length + front.length = (c :: tail).length + (front.length - 1) := by
    rw [List.length_cons]
    omega
  rw [hlength, List.append_assoc, ← List.cons_append, List.drop_length_add_append]

theorem Reads.not_mark (hd : Sharp d) (hcustom : d.customOperators)
    (h : Reads d offset before front back us) (hne : us ≠ []) (hall : front.all isOperatorChar)
    {mark : List Char} (hmem : mark ∈ commentMarks) :
    ¬mark <+: (front ++ back).drop (front.length - 1) := by
  induction h with
  | nil => contradiction
  | @cons offset before gap tail front back c l us hgap hl hvalid htail h ih =>
    have hdrop : (gap ++ c :: (tail ++ front) ++ back).drop
          ((gap ++ c :: (tail ++ front)).length - 1) =
        (c :: (tail ++ front ++ back)).drop (tail.length + front.length) := by
      have hlength : (gap ++ c :: (tail ++ front)).length - 1 =
          gap.length + (tail.length + front.length) := by
        simp
      rw [hlength, List.append_assoc, List.drop_length_add_append, List.cons_append]
    rw [hdrop]
    simp only [List.all_append, List.all_cons, Bool.and_eq_true] at hall
    obtain ⟨-, hc, -, hfront⟩ := hall
    by_cases hus : us = []
    · subst hus
      cases h
      rw [List.length_nil, Nat.add_zero, htail]
      exact not_mark_of_lexeme hd hcustom (gapItem?_drop (drop_gap hgap)) hl hvalid hc hmem
    · rw [drop_cons_append (h.ne_nil hus)]
      exact ih hus hfront

theorem Reads.scan_eq (hd : Sharp d) (h : Reads d offset before front back us)
    (hback : back.head?.any Text.isLetter = false)
    (hdashes : d.dashCommentNeedsSpace → ¬['-', '-'] <:+ front) :
    scan d offset before front = us := by
  induction h with
  | nil => exact scan_nil List.drop_nil
  | @cons offset before gap tail front back c l us hgap hl hvalid htail h ih =>
    have hcut : (tail ++ front ++ back).take (tail ++ front).length = tail ++ front :=
      List.take_left
    have hlexeme : lexeme d ((gap.getLast?.or before).any endsName) c (tail ++ front) = l := by
      rw [← hcut]
      apply lexeme_take hl hvalid
      · rw [List.length_append, htail]
        exact Nat.le_add_right _ _
      · by_cases hus : us = []
        · subst hus
          cases h
          exact .inl (by rw [List.append_nil, htail])
        · refine .inr ⟨?_, fun hcustom hall mark hmem => ?_⟩
          · rw [List.drop_left]
            exact hback
          · rw [hcut, List.all_cons, List.all_append, Bool.and_eq_true, Bool.and_eq_true] at hall
            rw [List.length_append, drop_cons_append (h.ne_nil hus)]
            exact h.not_mark hd hcustom hus hall.2.2 hmem
    have hgap' : gapLength d (gap ++ c :: (tail ++ front)) = gap.length := by
      have htake : (gap ++ c :: (tail ++ front ++ back)).take
          (gap.length + 1 + (tail ++ front).length) = gap ++ c :: (tail ++ front) := by
        rw [Nat.add_assoc, List.take_length_add_append, Nat.add_comm, List.take_succ_cons, hcut]
      have hlength := gapLength_take (n := (tail ++ front).length) (drop_gap hgap) (hl ▸ hvalid) <| by
        intro hspace heq
        rw [hcut] at heq
        exact hdashes hspace ⟨gap, by rw [heq]⟩
      rw [hgap, htake] at hlength
      exact hlength
    rw [scan_cons (take_gap hgap') (drop_gap hgap') hlexeme, ← htail, List.take_left,
      List.drop_left, ih hback]
    intro hspace hsuffix
    exact hdashes hspace (hsuffix.trans ⟨gap ++ c :: tail, by simp⟩)

def Separated (ts : List Token) : Prop :=
  ∀ t us, ts = t :: us → t.kind = .semicolon

theorem not_isLetter_of_scan (h : Separated (scan d offset before cs)) :
    cs.head?.any Text.isLetter = false := by
  cases cs with
  | nil => rfl
  | cons c cs =>
    change Text.isLetter c = false
    cases hitem : gapItem? d c cs with
    | some more =>
      unfold gapItem? at hitem
      split at hitem
      · rename_i hblank
        exact Text.not_isLetter_of_isBlank hblank
      · split at hitem
        · rename_i hline
          unfold startsLineComment at hline
          split at hline
          · rename_i heq
            cases heq
            decide
          · rename_i heq
            cases heq
            decide
          · contradiction
        · split at hitem
          · decide
          · contradiction
    | none =>
      have hdrop : (c :: cs).drop (gapLength d (c :: cs)) = c :: cs := by
        rw [gapLength_none hitem, List.drop_zero]
      have hkind := h _ _ (scan_cons rfl hdrop rfl)
      cases eq_semicolon_of_lexeme hkind
      decide

theorem lexeme_before {glued : Bool} (h : (lexeme d glued c cs).kind ≠ .dot) :
    lexeme d false c cs = lexeme d glued c cs := by
  cases glued with
  | false => rfl
  | true =>
    apply lexeme_glued
    rintro ⟨rfl, hdigit⟩
    apply h
    unfold lexeme
    simp [delimiter?]

theorem exists_of_semicolon {t : Token} {ts : List Token} (h : scan d 0 none cs = t :: ts)
    (hkind : t.kind = .semicolon) (hstart : t.span.start = 0) :
    ∃ rest, cs = ';' :: rest ∧ t = ⟨.semicolon, 0, 1⟩ := by
  cases hdrop : cs.drop (gapLength d cs) with
  | nil =>
    rw [scan_nil hdrop] at h
    contradiction
  | cons c rest =>
    rw [scan_cons rfl hdrop rfl] at h
    obtain ⟨rfl, -⟩ := List.cons.inj h
    have hgap : cs.take (gapLength d cs) = [] := by
      have hstart : 0 + byteLength (cs.take (gapLength d cs)) = 0 := hstart
      have := Text.length_le_byteLength (cs.take (gapLength d cs))
      exact List.eq_nil_of_length_eq_zero (by omega)
    have hcs := List.take_append_drop (gapLength d cs) cs
    rw [hgap, hdrop, List.nil_append] at hcs
    rw [hgap]
    cases eq_semicolon_of_lexeme hkind
    exact ⟨rest, hcs.symm, rfl⟩

theorem exists_cut_front {source : String} {pre : List Token} {u : Token}
    (h : scan d 0 none source.toList = pre ++ u :: us)
    (hvalid : ∀ t ∈ pre, t.kind.isValid) (hdot : u.kind ≠ .dot) :
    ∃ before rest, source.toList = before ++ rest ∧ u.span.start = byteLength before ∧
      u :: us = (scan d 0 none rest).map (relocate (Span.shift (byteLength before))) := by
  obtain ⟨front, back, last, hsource, -, hback⟩ := exists_reads h hvalid
  cases hdrop : back.drop (gapLength d back) with
  | nil =>
    rw [scan_nil hdrop] at hback
    contradiction
  | cons c rest =>
    generalize hgap : back.take (gapLength d back) = gap
    have hitem : gapLength d (c :: rest) = 0 := gapLength_none (gapItem?_drop hdrop)
    have hrest : (c :: rest).drop (gapLength d (c :: rest)) = c :: rest := by
      rw [hitem, List.drop_zero]
    have hnone : (c :: rest).take (gapLength d (c :: rest)) = [] := by
      rw [hitem, List.take_zero]
    have hback' : back = gap ++ c :: rest := by
      rw [← hgap, ← hdrop, List.take_append_drop]
    rw [scan_cons hgap hdrop rfl] at hback
    refine ⟨front ++ gap, c :: rest, ?_, ?_, ?_⟩
    · rw [hsource, hback', List.append_assoc]
    · rw [← (List.cons.inj hback).1, byteLength_append, Nat.zero_add]
    · have hkind : (lexeme d ((gap.getLast?.or last).any endsName) c rest).kind ≠ .dot := by
        rw [← (List.cons.inj hback).1] at hdot
        exact hdot
      have hlexeme : lexeme d ((([] : List Char).getLast?.or none).any endsName) c rest =
          lexeme d ((gap.getLast?.or last).any endsName) c rest := lexeme_before hkind
      rw [← scan_shift rfl, Nat.add_zero, scan_cons hnone hrest hlexeme, ← hback]
      simp

theorem exists_cut_back (hd : Sharp d) {vs : List Token} (h : scan d 0 none cs = us ++ vs)
    (hvalid : ∀ t ∈ us, t.kind.isValid) (hvs : Separated vs) :
    ∃ inside after, cs = inside ++ after ∧ stopOf 0 us = byteLength inside ∧
      ((d.dashCommentNeedsSpace → ¬['-', '-'] <:+ inside) → scan d 0 none inside = us) := by
  obtain ⟨inside, after, last, hcs, hinside, hafter⟩ := exists_reads h hvalid
  rw [← hafter] at hvs
  refine ⟨inside, after, hcs, ?_, hinside.scan_eq hd (not_isLetter_of_scan hvs)⟩
  rw [hinside.stopOf_eq, Nat.zero_add]

def inPiece (s : Span) (ts : List Token) : List Token :=
  ts.filter fun t => s.start ≤ t.span.start ∧ t.span.start < s.stop

def behindPiece (s : Span) (ts : List Token) : List Token :=
  ts.filter fun t => s.stop ≤ t.span.start

/-- The tokens of a text from one token up to another are those of the piece that they span. -/
theorem pieces_of_scan {before : Option Char} {source : String} {pre post : List Token} {t : Token}
    (h : scan d 0 before source.toList = pre ++ (t :: us ++ post)) :
    inPiece ⟨t.span.start, stopOf 0 (t :: us)⟩ (pre ++ (t :: us ++ post)) = t :: us ∧
      behindPiece ⟨t.span.start, stopOf 0 (t :: us)⟩ (pre ++ (t :: us ++ post)) = post := by
  have hlt : ∀ u ∈ pre ++ (t :: us ++ post), u.span.start < u.span.stop := by
    rw [← h]
    exact fun u hu => (scan_cut (List.nil_append source.toList).symm before u hu).spelled.lt
  have hrow := (scan_spans (d := d) (List.nil_append source.toList).symm before).1
  have h : scan d (byteLength []) before source.toList = pre ++ (t :: us ++ post) := h
  rw [h, List.map_append, List.map_append] at hrow
  obtain ⟨m, hpre, hrow⟩ := hrow.split
  obtain ⟨m', hus, hpost⟩ := hrow.split
  obtain ⟨last, hlast⟩ : ∃ last, (t :: us).getLast? = some last :=
    Option.isSome_iff_exists.1 (List.getLast?_isSome.2 (List.cons_ne_nil _ _))
  have hstop : stopOf 0 (t :: us) = last.span.stop := by
    unfold stopOf
    rw [hlast]
    rfl
  have htight : Span.Row t.span.start ((t :: us).map Token.span) last.span.stop :=
    hus.tight rfl (by rw [List.getLast?_map, hlast]; rfl)
  have hm' : last.span.stop ≤ m' :=
    (hus.bounds (List.mem_map_of_mem (List.mem_of_getLast? hlast))).2.2
  have hbefore : ∀ u ∈ pre, u.span.start < t.span.start := by
    intro u hu
    have hstop := (hpre.bounds (List.mem_map_of_mem hu)).2.2
    have hstart := (hus.bounds (List.mem_map_of_mem (List.mem_cons_self (a := t)))).1
    exact Nat.lt_of_lt_of_le (hlt u (List.mem_append_left _ hu)) (Nat.le_trans hstop hstart)
  have hinside : ∀ u ∈ t :: us, t.span.start ≤ u.span.start ∧ u.span.start < last.span.stop := by
    intro u hu
    have hbounds := htight.bounds (List.mem_map_of_mem hu)
    have hlt := hlt u (List.mem_append_right _ (List.mem_append_left _ hu))
    exact ⟨hbounds.1, Nat.lt_of_lt_of_le hlt hbounds.2.2⟩
  have hbehind : ∀ u ∈ post, last.span.stop ≤ u.span.start := fun u hu =>
    Nat.le_trans hm' (hpost.bounds (List.mem_map_of_mem hu)).1
  have hle := htight.le
  unfold inPiece behindPiece
  rw [hstop]
  constructor
  · rw [List.filter_append, List.filter_append, List.filter_eq_nil_iff.2, List.filter_eq_self.2,
      List.filter_eq_nil_iff.2, List.nil_append, List.append_nil]
    · intro u hu
      simpa using fun _ => hbehind u hu
    · intro u hu
      simpa using hinside u hu
    · intro u hu
      have := hbefore u hu
      simp
      omega
  · rw [List.filter_append, List.filter_append, List.filter_eq_nil_iff.2, List.filter_eq_nil_iff.2,
      List.filter_eq_self.2, List.nil_append, List.nil_append]
    · intro u hu
      simpa using hbehind u hu
    · intro u hu
      simpa using (hinside u hu).2
    · intro u hu
      have := hbefore u hu
      simp
      omega

end Token

end SqlScript
