import SqlScript.Proofs.Joined.Lexeme
import SqlScript.Proofs.Joined.Relocation
import SqlScript.Proofs.Tiling

/-!
The tokens of a text that is joined from two others with a separator between them.
-/

namespace SqlScript

namespace Token

variable {d : Dialect} {b : Char} {cs ext : List Char}

theorem commentEnd?_append {nested : Bool} {depth n m : Nat}
    (h : commentEnd? nested depth n cs = some m) (ext : List Char) :
    commentEnd? nested depth n (cs ++ ext) = some m ∧ m ≤ n + cs.length := by
  fun_induction commentEnd? nested depth n cs with
  | case1 => contradiction
  | case2 n rest =>
    cases h
    simp [commentEnd?]
  | case3 n rest depth ih =>
    have := ih h
    simp only [List.cons_append, List.length_cons, commentEnd?]
    exact ⟨this.1, by omega⟩
  | case4 depth n rest hnested ih =>
    have := ih h
    simp only [List.cons_append, List.length_cons, commentEnd?, if_pos hnested]
    exact ⟨this.1, by omega⟩
  | case5 depth n rest hnested ih =>
    have := ih h
    simp only [List.cons_append, List.length_cons, commentEnd?, if_neg hnested] at this ⊢
    exact ⟨this.1, by omega⟩
  | case6 depth n c cs hclose hopen ih =>
    have := ih h
    cases cs with
    | nil => contradiction
    | cons c' cs =>
      have hcons : commentEnd? nested depth n (c :: c' :: (cs ++ ext)) =
          commentEnd? nested depth (n + 1) (c' :: (cs ++ ext)) := by
        rw [commentEnd?]
        · simp_all
        · simp_all
      simp only [List.cons_append, List.length_cons] at this ⊢
      rw [hcons]
      exact ⟨this.1, by omega⟩

theorem startsLineComment_blank (hb : b.isWhitespace) (c : Char) (cs ext : List Char) :
    startsLineComment d (c :: (cs ++ b :: ext)) = startsLineComment d (c :: cs) := by
  have hblank : Text.isBlank b := Text.isBlank_of_isWhitespace hb
  have hsign : b ≠ '-' := Text.of_isWhitespace hb (by decide)
  match cs with
  | [] =>
    unfold startsLineComment
    split <;> simp_all
  | [a] =>
    unfold startsLineComment
    split
    · rename_i heq
      cases heq
      simp [hblank]
    all_goals simp_all
  | a :: b :: rest =>
    unfold startsLineComment
    split
    · rename_i heq
      cases heq
      rfl
    all_goals simp_all

theorem takeWhile_newline (cs ext : List Char) :
    (cs ++ '\n' :: ext).takeWhile (· ≠ '\n') = cs.takeWhile (· ≠ '\n') := by
  induction cs with
  | nil => simp
  | cons c cs ih => rw [List.cons_append, List.takeWhile_cons, List.takeWhile_cons, ih]

theorem gapItem?_newline {c : Char} {more : Nat} (h : gapItem? d c cs = some more)
    (ext : List Char) : gapItem? d c (cs ++ '\n' :: ext) = some more ∧ more ≤ cs.length := by
  unfold gapItem? at h ⊢
  rw [startsLineComment_blank (by decide), takeWhile_newline]
  split at h
  · rename_i hblank
    cases h
    rw [if_pos hblank]
    exact ⟨rfl, Nat.zero_le _⟩
  · rename_i hblank
    rw [if_neg hblank]
    split at h
    · rename_i hline
      cases h
      rw [if_pos hline]
      exact ⟨rfl, (List.takeWhile_sublist _).length_le⟩
    · rename_i hline
      rw [if_neg hline]
      split at h
      · rename_i rest
        have := commentEnd?_append h ('\n' :: ext)
        refine ⟨this.1, ?_⟩
        rw [List.length_cons]
        omega
      · contradiction

theorem gapItem?_blank_none (hb : b.isWhitespace) {c : Char} (h : gapItem? d c cs = none)
    (hcomment : ¬(c = '/' ∧ cs.head? = some '*')) (ext : List Char) :
    gapItem? d c (cs ++ b :: ext) = none := by
  have hstar : b ≠ '*' := Text.of_isWhitespace hb (by decide)
  unfold gapItem? at h ⊢
  rw [startsLineComment_blank hb]
  split at h
  · contradiction
  · rename_i hblank
    rw [if_neg hblank]
    split at h
    · contradiction
    · rename_i hline
      rw [if_neg hline]
      split
      · rename_i rest hslash hcs
        cases cs with
        | nil => simp [hstar] at hcs
        | cons a cs =>
          rw [List.cons_append] at hcs
          cases hcs
          simp at hcomment
      · rfl

theorem gapLength_newline_nil (h : cs.drop (gapLength d cs) = []) (ext : List Char) :
    gapLength d (cs ++ '\n' :: ext) = cs.length + gapLength d ('\n' :: ext) := by
  induction hlen : cs.length using Nat.strongRecOn generalizing cs with
  | ind n ih =>
  cases cs with
  | nil =>
    cases hlen
    simp
  | cons c cs =>
    cases hitem : gapItem? d c cs with
    | none =>
      rw [gapLength_none hitem] at h
      contradiction
    | some more =>
      obtain ⟨hnewline, hle⟩ := gapItem?_newline hitem ext
      rw [gapLength_some hitem, Nat.add_comm more 1, Nat.add_assoc, Nat.add_comm 1,
        List.drop_succ_cons, ← List.drop_drop] at h
      rw [List.cons_append, gapLength_some hnewline, List.drop_append_of_le_length hle]
      rw [List.length_cons] at hlen
      rw [ih _ _ h rfl]
      · rw [List.length_drop]
        omega
      · rw [List.length_drop]
        omega

theorem gapLength_newline_cons {c : Char} {rest : List Char}
    (h : cs.drop (gapLength d cs) = c :: rest) (hcomment : ¬(c = '/' ∧ rest.head? = some '*'))
    (ext : List Char) : gapLength d (cs ++ '\n' :: ext) = gapLength d cs := by
  induction hlen : cs.length using Nat.strongRecOn generalizing cs with
  | ind n ih =>
  cases cs with
  | nil => simp at h
  | cons a cs =>
    cases hitem : gapItem? d a cs with
    | none =>
      rw [gapLength_none hitem, List.drop_zero] at h
      cases h
      rw [List.cons_append, gapLength_none hitem,
        gapLength_none (gapItem?_blank_none (by decide) hitem hcomment ext)]
    | some more =>
      obtain ⟨hnewline, hle⟩ := gapItem?_newline hitem ext
      rw [gapLength_some hitem, Nat.add_comm more 1, Nat.add_assoc, Nat.add_comm 1,
        List.drop_succ_cons, ← List.drop_drop] at h
      rw [List.cons_append, gapLength_some hnewline, gapLength_some hitem,
        List.drop_append_of_le_length hle]
      rw [List.length_cons] at hlen
      rw [ih _ _ h rfl]
      rw [List.length_drop]
      omega

theorem not_comment_of_isValid {glued : Bool} {c : Char} {rest : List Char}
    (h : (lexeme d glued c rest).kind.isValid) : ¬(c = '/' ∧ rest.head? = some '*') := by
  rintro ⟨rfl, hstar⟩
  unfold lexeme delimiter? at h
  simp [hstar, TokenKind.isValid] at h

theorem scan_blank (hb : b.isWhitespace) (offset : Nat) (before : Option Char) (cs : List Char) :
    scan d offset before (b :: cs) = scan d (offset + 1) (some b) cs := by
  have hgap : gapLength d (b :: cs) = gapLength d cs + 1 := by
    rw [gapLength_blank (Text.isBlank_of_isWhitespace hb), Nat.add_comm]
  have htake : (b :: cs).take (gapLength d (b :: cs)) = b :: cs.take (gapLength d cs) := by
    rw [hgap, List.take_succ_cons]
  have hdrop : (b :: cs).drop (gapLength d (b :: cs)) = cs.drop (gapLength d cs) := by
    rw [hgap, List.drop_succ_cons]
  have hbytes : offset + byteLength (b :: cs.take (gapLength d cs)) =
      offset + 1 + byteLength (cs.take (gapLength d cs)) := by
    have hsize : b.utf8Size = 1 := Text.of_isWhitespace hb (by decide)
    rw [byteLength_cons, hsize, Nat.add_assoc]
  have hlast : (b :: cs.take (gapLength d cs)).getLast?.or before =
      (cs.take (gapLength d cs)).getLast?.or (some b) := by
    rw [List.getLast?_cons]
    cases (cs.take (gapLength d cs)).getLast? <;> rfl
  cases h : cs.drop (gapLength d cs) with
  | nil => rw [scan_nil h, scan_nil (hdrop.trans h)]
  | cons c rest =>
    rw [scan_cons rfl h rfl, scan_cons htake (hdrop.trans h) rfl, hbytes, hlast]

/-- Where a text goes on behind a line break, so do its tokens. -/
theorem scan_append_newline {offset : Nat} {before : Option Char}
    (h : ∀ t ∈ scan d offset before cs, t.kind.isValid) (ext : List Char) :
    scan d offset before (cs ++ '\n' :: ext) =
      scan d offset before cs ++ scan d (offset + byteLength cs + 1) (some '\n') ext := by
  induction hlen : cs.length using Nat.strongRecOn generalizing offset cs before with
  | ind n ih =>
  cases hdrop : cs.drop (gapLength d cs) with
  | nil =>
    have hgap := gapLength_newline_nil hdrop ext
    have hdrop' : (cs ++ '\n' :: ext).drop (gapLength d (cs ++ '\n' :: ext)) =
        ('\n' :: ext).drop (gapLength d ('\n' :: ext)) := by
      rw [hgap, List.drop_length_add_append]
    have htake' : (cs ++ '\n' :: ext).take (gapLength d (cs ++ '\n' :: ext)) =
        cs ++ ('\n' :: ext).take (gapLength d ('\n' :: ext)) := by
      rw [hgap, List.take_length_add_append]
    rw [scan_nil hdrop, List.nil_append, ← scan_blank (by decide) _ none]
    cases h' : ('\n' :: ext).drop (gapLength d ('\n' :: ext)) with
    | nil => rw [scan_nil h', scan_nil (hdrop'.trans h')]
    | cons c rest =>
      have hpos : gapLength d ('\n' :: ext) = gapLength d ext + 1 := by
        rw [gapLength_blank (c := '\n') (by decide), Nat.add_comm]
      have hlast : (cs ++ ('\n' :: ext).take (gapLength d ('\n' :: ext))).getLast?.or before =
          (('\n' :: ext).take (gapLength d ('\n' :: ext))).getLast?.or none := by
        rw [hpos, List.take_succ_cons, List.getLast?_append, List.getLast?_cons]
        rfl
      have hbytes : offset + byteLength (cs ++ ('\n' :: ext).take (gapLength d ('\n' :: ext))) =
          offset + byteLength cs + byteLength (('\n' :: ext).take (gapLength d ('\n' :: ext))) := by
        rw [byteLength_append, Nat.add_assoc]
      rw [scan_cons rfl h' rfl, scan_cons htake' (hdrop'.trans h') rfl, hbytes, hlast]
  | cons c rest =>
    rw [scan_cons rfl hdrop rfl] at h ⊢
    rw [List.forall_mem_cons] at h
    generalize hl : lexeme d (((cs.take (gapLength d cs)).getLast?.or before).any endsName) c rest =
      l at h ⊢
    have hle : gapLength d cs ≤ cs.length := by
      have := congrArg List.length hdrop
      simp at this
      omega
    have hgap := gapLength_newline_cons hdrop (not_comment_of_isValid (hl ▸ h.1)) ext
    have htake' : (cs ++ '\n' :: ext).take (gapLength d (cs ++ '\n' :: ext)) =
        cs.take (gapLength d cs) := by
      rw [hgap, List.take_append_of_le_length hle]
    have hdrop' : (cs ++ '\n' :: ext).drop (gapLength d (cs ++ '\n' :: ext)) =
        c :: (rest ++ '\n' :: ext) := by
      rw [hgap, List.drop_append_of_le_length hle, hdrop, List.cons_append]
    have hlexeme := lexeme_blank (d := d) (show Char.isWhitespace '\n' by decide)
      (((cs.take (gapLength d cs)).getLast?.or before).any endsName) c rest ext
    rw [hl] at hlexeme
    obtain ⟨hl', hmore⟩ := hlexeme h.1
    have hcs : cs = cs.take (gapLength d cs) ++ c :: (rest.take l.more ++ rest.drop l.more) := by
      rw [List.take_append_drop, ← hdrop, List.take_append_drop]
    have hlt : (rest.drop l.more).length < n := by
      have := congrArg List.length hcs
      simp at this ⊢
      omega
    have hbytes : byteLength cs = byteLength (cs.take (gapLength d cs)) +
        byteLength (c :: rest.take l.more) + byteLength (rest.drop l.more) := by
      have := congrArg byteLength hcs
      rw [byteLength_append, byteLength_cons, byteLength_append] at this
      rw [byteLength_cons]
      omega
    rw [scan_cons htake' hdrop' hl', List.take_append_of_le_length hmore,
      List.drop_append_of_le_length hmore, ih _ hlt h.2 rfl, hbytes]
    simp [Nat.add_assoc]

/-- Tokens do not depend on where the text starts, nor on what is in front of it, as long as that
ends no name. -/
theorem scan_shift {before before' : Option Char}
    (h : before'.any endsName = before.any endsName) (size offset : Nat) (cs : List Char) :
    scan d (size + offset) before' cs =
      (scan d offset before cs).map (relocate (Span.shift size)) := by
  induction hlen : cs.length using Nat.strongRecOn generalizing offset cs before before' with
  | ind n ih =>
  cases hdrop : cs.drop (gapLength d cs) with
  | nil => rw [scan_nil hdrop, scan_nil hdrop, List.map_nil]
  | cons c rest =>
    have hglued : ((cs.take (gapLength d cs)).getLast?.or before').any endsName =
        ((cs.take (gapLength d cs)).getLast?.or before).any endsName := by
      cases (cs.take (gapLength d cs)).getLast? with
      | none => exact h
      | some last => rfl
    rw [scan_cons rfl hdrop rfl, scan_cons rfl hdrop rfl, hglued]
    generalize lexeme d _ c rest = l
    have hlt : (rest.drop l.more).length < n := by
      have := congrArg List.length hdrop
      simp at this ⊢
      omega
    have hstart : size + offset + byteLength (cs.take (gapLength d cs)) =
        size + (offset + byteLength (cs.take (gapLength d cs))) := by
      rw [Nat.add_assoc]
    have hstop : size + (offset + byteLength (cs.take (gapLength d cs))) +
          byteLength (c :: rest.take l.more) =
        size + (offset + byteLength (cs.take (gapLength d cs)) +
          byteLength (c :: rest.take l.more)) := by
      rw [Nat.add_assoc]
    rw [List.map_cons, hstart, hstop]
    congr 1
    exact ih _ hlt rfl _ _ rfl

theorem scan_semicolon (offset : Nat) (before : Option Char) (cs : List Char) :
    scan d offset before (';' :: cs) =
      ⟨.semicolon, offset, offset + 1⟩ :: scan d (offset + 1) (some ';') cs := by
  have hgap : gapLength d (';' :: cs) = 0 := by
    apply gapLength_none
    unfold gapItem? startsLineComment
    simp
    decide
  have hdrop : (';' :: cs).drop (gapLength d (';' :: cs)) = ';' :: cs := by
    rw [hgap, List.drop_zero]
  rw [scan_cons rfl hdrop rfl, hgap]
  rfl

theorem tokenize_joined {s : String} (h : ∀ t ∈ scan d 0 none s.toList, t.kind.isValid)
    (t : String) :
    tokenize d (s ++ "\n;\n" ++ t) =
      scan d 0 none s.toList ++
        ⟨.semicolon, s.utf8ByteSize + 1, s.utf8ByteSize + 2⟩ ::
          (tokenize d t).map (relocate (Span.shift (s.utf8ByteSize + 3))) := by
  have hlist : (s ++ "\n;\n" ++ t).toList = s.toList ++ '\n' :: ';' :: '\n' :: t.toList := by
    simp
  have hbytes : (s ++ "\n;\n" ++ t).utf8ByteSize = s.utf8ByteSize + 3 + t.utf8ByteSize := by
    rw [← byteLength_toList, hlist, ← byteLength_toList s, ← byteLength_toList t]
    simp [Char.utf8Size]
    omega
  unfold tokenize
  rw [hlist, scan_append_newline h, scan_semicolon, scan_blank (by decide), byteLength_toList,
    Nat.zero_add, hbytes, List.map_append]
  rw [← scan_shift (show (some '\n').any endsName = none.any endsName by decide)]
  simp [eof, relocate, Span.shift, Span.empty]

end Token

end SqlScript
