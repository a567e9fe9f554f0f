import Mathlib.Data.List.Induction
import SqlScript.Proofs.Tokens
import SqlScript.Source.LineIndex

/-!
Lines and columns by plain counting. What is resolved by an index is what one gets by counting the
characters in front of the offset; nothing is subtracted from less than itself on the way there, and
places come in the order of their offsets.
-/

namespace SqlScript

open Token

namespace Text

theorem bisect.go_eq {xs : Array α} {p : α → Bool} {k : Nat}
    (hbefore : ∀ i (h : i < xs.size), i < k → p xs[i])
    (hbehind : ∀ i (h : i < xs.size), k ≤ i → ¬p xs[i])
    (lo hi : Nat) (hhi : hi ≤ xs.size) (hlo : lo ≤ k) (hk : k ≤ hi) : go xs p lo hi hhi = k := by
  fun_induction go xs p lo hi hhi with
  | case1 lo hi hhi hlt hmid hp ih =>
    have : (lo + hi) / 2 < k := by
      apply Nat.lt_of_not_le
      intro hle
      exact hbehind _ hmid hle hp
    exact ih this hk
  | case2 lo hi hhi hlt hmid hp ih =>
    have : k ≤ (lo + hi) / 2 := by
      apply Nat.le_of_not_lt
      intro hlt
      exact hp (hbefore _ hmid hlt)
    exact ih hlo this
  | case3 lo hi hhi hlt => omega

theorem bisect_append {xs ys : Array α} {p : α → Bool} (hxs : ∀ x ∈ xs, p x) (hys : ∀ y ∈ ys, ¬p y) :
    bisect (xs ++ ys) p = xs.size := by
  unfold bisect
  apply bisect.go_eq
  · intro i h hi
    rw [Array.getElem_append_left hi]
    exact hxs _ (Array.getElem_mem hi)
  · intro i h hi
    rw [Array.getElem_append_right hi]
    exact hys _ (Array.getElem_mem _)
  · exact Nat.zero_le _
  · simp

theorem length_le_byteLength (cs : List Char) : cs.length ≤ byteLength cs := by
  induction cs with
  | nil => simp
  | cons c cs ih =>
    have := c.utf8Size_pos
    simp
    omega

theorem exists_lastLine (cs : List Char) :
    ∃ head tail, cs = head ++ tail ∧ '\n' ∉ tail ∧ (head = [] ∨ head.getLast? = some '\n') := by
  induction cs using List.reverseRecOn with
  | nil => exact ⟨[], [], rfl, by simp, .inl rfl⟩
  | append_singleton cs c ih =>
    by_cases hc : c = '\n'
    · exact ⟨cs ++ [c], [], by simp, by simp, .inr (by simp [hc])⟩
    · obtain ⟨head, tail, rfl, htail, hhead⟩ := ih
      refine ⟨head, tail ++ [c], by simp, ?_, hhead⟩
      simp [htail, Ne.symm hc]

end Text

namespace LineIndex

structure Extends (index longer : LineIndex) : Prop where
  baseline : longer.baseline = index.baseline
  size : index.size ≤ longer.size
  lineStarts : ∃ more, longer.lineStarts = index.lineStarts ++ more ∧ ∀ n ∈ more, index.size < n
  wide : ∃ more, longer.wide = index.wide ++ more ∧ ∀ w ∈ more, index.size ≤ w.1

theorem Extends.refl (index : LineIndex) : index.Extends index :=
  ⟨rfl, Nat.le_refl _, ⟨#[], by simp, by simp⟩, ⟨#[], by simp, by simp⟩⟩

theorem Extends.push {index longer : LineIndex} (h : index.Extends longer) (c : Char) :
    index.Extends (longer.push c) := by
  obtain ⟨starts, hstarts, hlt⟩ := h.lineStarts
  obtain ⟨wide, hwide, hle⟩ := h.wide
  have hsize := h.size
  have hpos := c.utf8Size_pos
  constructor
  · exact h.baseline
  · exact Nat.le_trans hsize (Nat.le_add_right _ _)
  · unfold LineIndex.push
    dsimp only
    split
    · refine ⟨starts.push (longer.size + c.utf8Size), by simp [hstarts], ?_⟩
      intro n hn
      obtain hn | rfl := Array.mem_push.1 hn
      · exact hlt n hn
      · omega
    · exact ⟨starts, hstarts, hlt⟩
  · unfold LineIndex.push
    dsimp only
    split
    · refine ⟨wide.push _, by rw [hwide, Array.push_append], ?_⟩
      intro w hw
      obtain hw | rfl := Array.mem_push.1 hw
      · exact hle w hw
      · exact hsize
    · exact ⟨wide, hwide, hle⟩

theorem extends_foldl {index longer : LineIndex} (h : index.Extends longer) (cs : List Char) :
    index.Extends (cs.foldl LineIndex.push longer) := by
  induction cs generalizing longer with
  | nil => exact h
  | cons c cs ih => exact ih (h.push c)

structure Counts (index : LineIndex) (before : List Char) : Prop where
  size : index.size = byteLength before
  lines : index.lineStarts.size = before.count '\n' + 1
  lineStarts : ∀ n ∈ index.lineStarts, n ≤ index.size
  wide : ∀ w ∈ index.wide, w.1 < index.size
  continuation : (index.wide.back?.map (·.2)).getD 0 + before.length = byteLength before

theorem counts_empty (baseline : Nat) : (empty baseline).Counts [] := by
  refine ⟨rfl, rfl, ?_, ?_, rfl⟩ <;> simp [empty]

theorem Counts.push {index : LineIndex} {before : List Char} (h : index.Counts before) (c : Char) :
    (index.push c).Counts (before ++ [c]) := by
  have hpos := c.utf8Size_pos
  constructor
  · simp [LineIndex.push, h.size]
  · unfold LineIndex.push
    dsimp only
    split
    · rename_i hc
      simp [hc, h.lines]
    · rename_i hc
      simp [h.lines, List.count_append, hc]
  · intro n hn
    change n ≤ index.size + c.utf8Size
    unfold LineIndex.push at hn
    dsimp only at hn
    split at hn
    · obtain hn | rfl := Array.mem_push.1 hn
      · exact Nat.le_trans (h.lineStarts n hn) (Nat.le_add_right _ _)
      · exact Nat.le_refl _
    · exact Nat.le_trans (h.lineStarts n hn) (Nat.le_add_right _ _)
  · intro w hw
    change w.1 < index.size + c.utf8Size
    unfold LineIndex.push at hw
    dsimp only at hw
    split at hw
    · obtain hw | rfl := Array.mem_push.1 hw
      · exact Nat.lt_of_lt_of_le (h.wide w hw) (Nat.le_add_right _ _)
      · exact Nat.lt_add_of_pos_right hpos
    · exact Nat.lt_of_lt_of_le (h.wide w hw) (Nat.le_add_right _ _)
  · have hcontinuation := h.continuation
    unfold LineIndex.push
    dsimp only
    split
    · simp
      omega
    · simp
      omega

theorem counts_foldl (before : List Char) (baseline : Nat) :
    (before.foldl LineIndex.push (empty baseline)).Counts before := by
  induction before using List.reverseRecOn with
  | nil => exact counts_empty baseline
  | append_singleton before c ih =>
    rw [List.foldl_append]
    exact ih.push c

theorem extends_ofString {source : String} {before after : List Char}
    (h : source.toList = before ++ after) (baseline : Nat) :
    (before.foldl LineIndex.push (empty baseline)).Extends (ofString source baseline) := by
  unfold ofString
  rw [h, List.foldl_append]
  exact extends_foldl (.refl _) after

theorem continuationBytes_ofString {source : String} {before after : List Char}
    (h : source.toList = before ++ after) (baseline : Nat) :
    (ofString source baseline).continuationBytes (byteLength before) + before.length =
      byteLength before := by
  have hcounts := counts_foldl before baseline
  obtain ⟨more, hwide, hmore⟩ := (extends_ofString h baseline).wide
  generalize before.foldl LineIndex.push (empty baseline) = index at hcounts hwide hmore
  have hbisect : Text.bisect (ofString source baseline).wide (·.1 < byteLength before) =
      index.wide.size := by
    rw [hwide]
    apply Text.bisect_append
    · intro w hw
      have := hcounts.wide w hw
      rw [hcounts.size] at this
      simpa using this
    · intro w hw
      have := hmore w hw
      rw [hcounts.size] at this
      simpa using this
  have hcontinuation := hcounts.continuation
  unfold continuationBytes
  rw [hbisect]
  split
  · rename_i hsize
    rw [Array.eq_empty_of_size_eq_zero hsize] at hcontinuation
    exact hcontinuation
  · rename_i n hsize
    rw [Array.back?_eq_getElem?, hsize] at hcontinuation
    rw [hwide, Array.getElem?_append_left (by omega)]
    exact hcontinuation

theorem bisect_lineStarts {source : String} {before after : List Char}
    (h : source.toList = before ++ after) (baseline : Nat) :
    Text.bisect (ofString source baseline).lineStarts (· ≤ byteLength before) =
      before.count '\n' + 1 := by
  have hcounts := counts_foldl before baseline
  obtain ⟨more, hstarts, hmore⟩ := (extends_ofString h baseline).lineStarts
  rw [hstarts, Text.bisect_append, hcounts.lines]
  · intro n hn
    have := hcounts.lineStarts n hn
    rw [hcounts.size] at this
    simpa using this
  · intro n hn
    have := hmore n hn
    rw [hcounts.size] at this
    simpa using this

theorem lineStart_ofString {source : String} {head after : List Char}
    (h : source.toList = head ++ after) (hhead : head = [] ∨ head.getLast? = some '\n')
    (baseline : Nat) :
    (ofString source baseline).lineStarts[head.count '\n']? = some (byteLength head) := by
  have hcounts := counts_foldl head baseline
  obtain ⟨more, hstarts, -⟩ := (extends_ofString h baseline).lineStarts
  have hback : (head.foldl LineIndex.push (empty baseline)).lineStarts.back? =
      some (byteLength head) := by
    obtain rfl | hlast := hhead
    · rfl
    · obtain ⟨init, rfl⟩ := List.getLast?_eq_some_iff.1 hlast
      have hinit := (counts_foldl init baseline).size
      rw [List.foldl_append]
      simp [LineIndex.push, hinit]
  rw [hstarts, Array.getElem?_append_left (by rw [hcounts.lines]; omega)]
  rw [Array.back?_eq_getElem?, hcounts.lines, Nat.add_sub_cancel] at hback
  exact hback

end LineIndex

def Position.behind (baseline : Nat) (before : List Char) : Position where
  line := max baseline 1 + before.count '\n'
  column := (before.reverse.takeWhile (· ≠ '\n')).length + 1
  offset := byteLength before

theorem LineIndex.size_ofString (source : String) (baseline : Nat) :
    (ofString source baseline).size = source.utf8ByteSize := by
  rw [← byteLength_toList]
  exact (counts_foldl source.toList baseline).size

theorem LineIndex.position_ofString {source : String} {before after : List Char}
    (h : source.toList = before ++ after) (baseline : Nat) :
    (ofString source baseline).position (byteLength before) = .behind baseline before := by
  obtain ⟨head, tail, rfl, htail, hhead⟩ := Text.exists_lastLine before
  have hsize : byteLength (head ++ tail) ≤ (ofString source baseline).size := by
    rw [size_ofString, ← byteLength_toList, h, byteLength_append _ after]
    exact Nat.le_add_right _ _
  have hcount : (head ++ tail).count '\n' = head.count '\n' := by
    rw [List.count_append, List.count_eq_zero.2 htail, Nat.add_zero]
  have hcolumn : (head ++ tail).reverse.takeWhile (· ≠ '\n') = tail.reverse := by
    rw [List.reverse_append, List.takeWhile_append_of_pos]
    · obtain rfl | hlast := hhead
      · simp
      · obtain ⟨init, rfl⟩ := List.getLast?_eq_some_iff.1 hlast
        simp
    · intro c hc
      have hne : c ≠ '\n' := by
        rintro rfl
        exact htail (List.mem_reverse.1 hc)
      simpa using hne
  have hstart : (ofString source baseline).lineStarts[head.count '\n']? = some (byteLength head) :=
    lineStart_ofString (by rw [h, List.append_assoc]) hhead baseline
  have hbefore := continuationBytes_ofString h baseline
  have hline := continuationBytes_ofString (h.trans (List.append_assoc _ _ _)) baseline
  have hlength := Text.length_le_byteLength tail
  unfold position Position.behind
  rw [Nat.min_eq_left hsize, hcolumn, hcount]
  simp only [bisect_lineStarts h, hcount, Nat.add_sub_cancel, hstart, Option.getD_some,
    baseline_ofString]
  simp only [byteLength_append, List.length_append, List.length_reverse, Position.mk.injEq,
    true_and, and_true] at *
  omega

def Position.Before (p q : Position) : Prop :=
  p.line < q.line ∨ p.line = q.line ∧ p.column < q.column

theorem Position.behind_before (baseline : Nat) (before : List Char) {more : List Char}
    (hmore : more ≠ []) :
    (behind baseline before).Before (behind baseline (before ++ more)) := by
  unfold Before behind
  dsimp only
  rw [List.count_append, List.reverse_append]
  by_cases hbreak : '\n' ∈ more
  · have hcount := List.count_pos_iff.2 hbreak
    omega
  · have hsame : ∀ c ∈ more.reverse, decide (c ≠ '\n') := by
      intro c hc
      rw [decide_eq_true_iff]
      rintro rfl
      exact hbreak (List.mem_reverse.1 hc)
    have hlength := List.length_pos_iff.2 hmore
    rw [List.count_eq_zero.2 hbreak, List.takeWhile_append_of_pos hsame, List.length_append,
      List.length_reverse]
    omega

namespace LineIndex

/--
To resolve this offset, a line is found, and nothing is subtracted from less than itself.
-/
structure Exact (index : LineIndex) (offset line lineStart : Nat) : Prop where
  found : Text.bisect index.lineStarts (· ≤ offset) = line + 1
  starts : index.lineStarts[line]? = some lineStart
  start_le : lineStart ≤ offset
  continuation_le : index.continuationBytes lineStart ≤ index.continuationBytes offset
  columns_le :
    index.continuationBytes offset - index.continuationBytes lineStart ≤ offset - lineStart

theorem exact_ofString {source : String} {before after : List Char}
    (h : source.toList = before ++ after) (baseline : Nat) :
    ∃ line lineStart, (ofString source baseline).Exact (byteLength before) line lineStart := by
  obtain ⟨head, tail, rfl, htail, hhead⟩ := Text.exists_lastLine before
  have hcut : source.toList = head ++ (tail ++ after) := by rw [h, List.append_assoc]
  have hcount : (head ++ tail).count '\n' = head.count '\n' := by
    rw [List.count_append, List.count_eq_zero.2 htail, Nat.add_zero]
  have hbefore := continuationBytes_ofString h baseline
  have hline := continuationBytes_ofString hcut baseline
  have hlength := Text.length_le_byteLength tail
  rw [byteLength_append, List.length_append] at hbefore
  refine ⟨head.count '\n', byteLength head, ?_, lineStart_ofString hcut hhead baseline, ?_, ?_, ?_⟩
  · rw [bisect_lineStarts h, hcount]
  all_goals
    rw [byteLength_append]
    omega

theorem position_min (index : LineIndex) (offset : Nat) :
    index.position (min offset index.size) = index.position offset := by
  unfold position
  rw [Nat.min_assoc, Nat.min_self]

/-- A place in a text, or behind it, is resolved to the characters in front of it. -/
theorem exists_before {source : String} {offset : Nat}
    (h : Text.Place source.toList offset ∨ source.utf8ByteSize ≤ offset) :
    ∃ before after, source.toList = before ++ after ∧
      byteLength before = min offset source.utf8ByteSize := by
  obtain ⟨before, after, htext, rfl⟩ | hbehind := h
  · refine ⟨before, after, htext, ?_⟩
    rw [← byteLength_toList, htext, byteLength_append, Nat.min_eq_left (Nat.le_add_right _ _)]
  · refine ⟨source.toList, [], (List.append_nil _).symm, ?_⟩
    rw [byteLength_toList, Nat.min_eq_right hbehind]

theorem position_before {source : String} {offset offset' : Nat} (baseline : Nat)
    (h : Text.Place source.toList offset) (h' : Text.Place source.toList offset')
    (hlt : offset < offset') :
    ((ofString source baseline).position offset).Before
      ((ofString source baseline).position offset') := by
  obtain ⟨before, after, htext, rfl⟩ := h
  obtain ⟨before', after', htext', rfl⟩ := h'
  rw [position_ofString htext, position_ofString htext']
  obtain ⟨more, rfl, -⟩ | ⟨back, rfl, -⟩ :=
    List.append_eq_append_iff.1 (htext.symm.trans htext')
  · apply Position.behind_before
    rintro rfl
    rw [List.append_nil] at hlt
    exact Nat.lt_irrefl _ hlt
  · rw [byteLength_append] at hlt
    omega

/--
An offset that no character is cut by is resolved to the line and column that counting gives, and
one behind the text to its end; nothing is subtracted from less than itself. Of two such offsets in
the text the lesser one is resolved to the earlier place.
-/
theorem position_counted (source : String) (baseline : Nat) :
    (∀ offset, Text.Place source.toList offset ∨ source.utf8ByteSize ≤ offset →
      ∃ before after, source.toList = before ++ after ∧
        byteLength before = min offset source.utf8ByteSize ∧
        (ofString source baseline).position offset = .behind baseline before ∧
        ∃ line lineStart,
          (ofString source baseline).Exact (min offset source.utf8ByteSize) line lineStart) ∧
    ∀ offset offset', Text.Place source.toList offset → Text.Place source.toList offset' →
      offset < offset' → ((ofString source baseline).position offset).Before
        ((ofString source baseline).position offset') := by
  constructor
  · intro offset h
    obtain ⟨before, after, htext, hlength⟩ := exists_before h
    refine ⟨before, after, htext, hlength, ?_, ?_⟩
    · rw [← position_min, size_ofString, ← hlength]
      exact position_ofString htext baseline
    · rw [← hlength]
      exact exact_ofString htext baseline
  · intro offset offset' h h' hlt
    exact position_before baseline h h' hlt

theorem position_counted_wide :
    (∃ before after, "é\n€b".toList = before ++ after ∧
      byteLength before = min 50 "é\n€b".utf8ByteSize ∧
      (ofString "é\n€b" 0).position 50 = .behind 0 before ∧
      ∃ line lineStart,
        (ofString "é\n€b" 0).Exact (min 50 "é\n€b".utf8ByteSize) line lineStart) ∧
    ((ofString "é\n€b" 0).position 2).Before ((ofString "é\n€b" 0).position 6) := by
  have hcounted := position_counted "é\n€b" 0
  have hfirst : Text.Place "é\n€b".toList 2 := ⟨['é'], ['\n', '€', 'b'], rfl, rfl⟩
  have hsecond : Text.Place "é\n€b".toList 6 := ⟨['é', '\n', '€'], ['b'], rfl, rfl⟩
  exact ⟨hcounted.1 50 (.inr (by decide)), hcounted.2 2 6 hfirst hsecond (by decide)⟩

example : (ofString "é\n€b" 40).position 6 = ⟨41, 2, 6⟩ := by
  decide +kernel

end LineIndex

end SqlScript
