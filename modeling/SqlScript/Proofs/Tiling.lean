import SqlScript.Proofs.Excerpt

/-!
Tokens are cut out of the text and written as their kinds say. They and the gaps between them are the
whole text: whatever no token takes is blank or a comment that is closed.
-/

namespace SqlScript.Token

def Cut (d : Dialect) (source : String) (t : Token) : Prop :=
  ∃ behind c rest glued, source.toList = behind ++ c :: rest ∧
    t = ⟨(lexeme d glued c rest).kind, byteLength behind,
      byteLength (behind ++ c :: rest.take (lexeme d glued c rest).more)⟩

/--
The token is what the lexer takes where it stands, behind all that is to be skipped.
-/
def Stands (d : Dialect) (source : String) (t : Token) : Prop :=
  ∃ behind c rest glued, source.toList = behind ++ c :: rest ∧ gapItem? d c rest = none ∧
    t = ⟨(lexeme d glued c rest).kind, byteLength behind,
      byteLength (behind ++ c :: rest.take (lexeme d glued c rest).more)⟩

/--
The token takes some of the text, and stands there as tokens of its kind are written.
-/
structure Spelled (source : String) (t : Token) : Prop where
  written : t.kind.spelledBy (t.text source)
  lt : t.span.start < t.span.stop

variable {d : Dialect} {source : String} {t : Token}

theorem Stands.cut (h : t.Stands d source) : t.Cut d source := by
  obtain ⟨behind, c, rest, glued, hsource, -, ht⟩ := h
  exact ⟨behind, c, rest, glued, hsource, ht⟩

theorem Cut.text (h : t.Cut d source) :
    ∃ c rest glued, t.kind = (lexeme d glued c rest).kind ∧
      t.text source = String.ofList (c :: rest.take (lexeme d glued c rest).more) := by
  obtain ⟨behind, c, rest, glued, hsource, rfl⟩ := h
  refine ⟨c, rest, glued, rfl, ?_⟩
  have hrest : source.toList = behind ++ c :: rest.take (lexeme d glued c rest).more ++
      rest.drop (lexeme d glued c rest).more := by
    rw [hsource]
    simp
  exact Span.slice_eq hrest

theorem Cut.spelled (h : t.Cut d source) : t.Spelled source := by
  constructor
  · obtain ⟨c, rest, glued, hkind, htext⟩ := h.text
    rw [hkind, htext]
    exact lexeme_spelledBy glued c rest
  · obtain ⟨behind, c, rest, glued, -, rfl⟩ := h
    have hsize := c.utf8Size_pos
    simp only [byteLength_append, byteLength_cons]
    omega

theorem scan_stands {behind cs : List Char} (htext : source.toList = behind ++ cs)
    (before : Option Char) : ∀ t ∈ scan d (byteLength behind) before cs, t.Stands d source := by
  induction hlen : cs.length using Nat.strongRecOn generalizing behind cs before with
  | ind n ih =>
  generalize hgap : cs.take (gapLength d cs) = gap
  cases hdrop : cs.drop (gapLength d cs) with
  | nil =>
    rw [scan_nil hdrop]
    exact nofun
  | cons c rest =>
    generalize hl : lexeme d ((gap.getLast?.or before).any endsName) c rest = l
    have hcs : cs = gap ++ c :: rest := by
      rw [← hdrop, ← hgap, List.take_append_drop]
    have hrest : source.toList = (behind ++ gap ++ c :: rest.take l.more) ++ rest.drop l.more := by
      rw [htext, hcs]
      simp
    have hlt : (rest.drop l.more).length < n := by
      rw [← hlen, hcs]
      simp
      omega
    have hstop : byteLength behind + byteLength gap + byteLength (c :: rest.take l.more) =
        byteLength (behind ++ gap ++ c :: rest.take l.more) := by
      simp [Nat.add_assoc]
    rw [scan_cons hgap hdrop hl, hstop]
    intro t ht
    cases ht with
    | head =>
      refine ⟨behind ++ gap, c, rest, (gap.getLast?.or before).any endsName, ?_,
        gapItem?_drop hdrop, ?_⟩
      · rw [htext, hcs, List.append_assoc]
      · rw [hl, ← byteLength_append]
    | tail _ ht => exact ih _ hlt hrest _ rfl t ht

theorem scan_cut {behind cs : List Char} (htext : source.toList = behind ++ cs)
    (before : Option Char) : ∀ t ∈ scan d (byteLength behind) before cs, t.Cut d source :=
  fun t ht => (scan_stands htext before t ht).cut

theorem stands_of_tokenize {ts : List Token} {u : Token} (h : tokenize d source = ts ++ [u]) :
    ∀ t ∈ ts, t.Stands d source := by
  unfold tokenize at h
  obtain ⟨rfl, -⟩ := List.append_inj' h rfl
  exact scan_stands (List.nil_append source.toList).symm none

theorem cut_of_tokenize {ts : List Token} {u : Token} (h : tokenize d source = ts ++ [u]) :
    ∀ t ∈ ts, t.Cut d source :=
  fun t ht => (stands_of_tokenize h t ht).cut

theorem spelled_of_tokenize {ts : List Token} {u : Token} (h : tokenize d source = ts ++ [u]) :
    ∀ t ∈ ts, t.Spelled source :=
  fun t ht => (cut_of_tokenize h t ht).spelled

end SqlScript.Token

namespace SqlScript

namespace Token

/--
What follows the `/*` of a block comment, up to the `*/` that closes it. Comments inside count if
they nest.
-/
inductive CommentBody (nested : Bool) : List Char → Prop
  | close : CommentBody nested ['*', '/']
  | char {c : Char} {cs : List Char} (hclose : ¬['*', '/'] <+: c :: cs)
      (hopen : nested → ¬['/', '*'] <+: c :: cs) (h : CommentBody nested cs) :
      CommentBody nested (c :: cs)
  | comment {inner cs : List Char} (hnested : nested) (hinner : CommentBody nested inner)
      (h : CommentBody nested cs) : CommentBody nested ('/' :: '*' :: (inner ++ cs))

/--
A comment that the end of its line closes, which is not part of it.
-/
structure LineComment (d : Dialect) (cs : List Char) : Prop where
  starts : (['#'] <+: cs ∧ d.hashComments) ∨
    ∃ body, cs = '-' :: '-' :: body ∧ (d.dashCommentNeedsSpace → body.head?.all Text.isBlank)
  single : '\n' ∉ cs

/--
Blanks and whole comments. Only in front of the end of the text, a comment may lack the end of its
line.
-/
inductive Gap (d : Dialect) (last : Bool) : List Char → Prop
  | nil : Gap d last []
  | blank {c : Char} {cs : List Char} (hc : Text.isBlank c) (h : Gap d last cs) :
      Gap d last (c :: cs)
  | line {comment cs : List Char} (hcomment : LineComment d comment) (h : Gap d last cs) :
      Gap d last (comment ++ '\n' :: cs)
  | lastLine {comment : List Char} (hlast : last) (hcomment : LineComment d comment) :
      Gap d last comment
  | block {body cs : List Char} (hbody : CommentBody d.nestedBlockComments body)
      (h : Gap d last cs) : Gap d last ('/' :: '*' :: (body ++ cs))

variable {d : Dialect} {c : Char} {cs : List Char}

theorem CommentBody.ne_nil {nested : Bool} (h : CommentBody nested cs) : cs ≠ [] := by
  cases h <;> simp

/-- Where `depth` comments are open around the one we are in, as many bodies end behind its own. -/
theorem exists_bodies_of_commentEnd? {nested : Bool} {depth n m : Nat}
    (h : commentEnd? nested depth n cs = some m) :
    ∃ (body : List Char) (bodies : List (List Char)) (rest : List Char),
      cs = body ++ (bodies.flatten ++ rest) ∧ m = n + (body ++ bodies.flatten).length ∧
      bodies.length = depth ∧ CommentBody nested body ∧ ∀ b ∈ bodies, CommentBody nested b := by
  fun_induction commentEnd? nested depth n cs with
  | case1 => contradiction
  | case2 n rest =>
    cases h
    exact ⟨['*', '/'], [], rest, rfl, rfl, rfl, .close, nofun⟩
  | case3 n rest depth ih =>
    obtain ⟨body, bodies, rest, rfl, rfl, rfl, hbody, hbodies⟩ := ih h
    refine ⟨['*', '/'], body :: bodies, rest, by simp, by simp; omega, rfl, .close, ?_⟩
    exact List.forall_mem_cons.2 ⟨hbody, hbodies⟩
  | case4 depth n rest hnested ih =>
    obtain ⟨inner, bodies, rest, rfl, rfl, hlength, hinner, hbodies⟩ := ih h
    obtain ⟨body, bodies, rfl⟩ : ∃ body bodies', bodies = body :: bodies' :=
      List.exists_cons_of_length_eq_add_one hlength
    obtain ⟨hbody, hbodies⟩ := List.forall_mem_cons.1 hbodies
    refine ⟨'/' :: '*' :: (inner ++ body), bodies, rest, by simp, by simp; omega, ?_,
      .comment hnested hinner hbody, hbodies⟩
    simpa using hlength
  | case5 depth n rest hnested ih =>
    obtain ⟨body, bodies, rest', hrest, rfl, hlength, hbody, hbodies⟩ := ih h
    refine ⟨'/' :: body, bodies, rest', ?_, ?_, hlength, ?_, hbodies⟩
    · rw [hrest, List.cons_append]
    · simp
      omega
    · exact .char (by simp) (fun h => absurd h hnested) hbody
  | case6 depth n c cs hclose hopen ih =>
    obtain ⟨body, bodies, rest, rfl, rfl, hlength, hbody, hbodies⟩ := ih h
    obtain ⟨a, body, rfl⟩ := List.exists_cons_of_ne_nil hbody.ne_nil
    refine ⟨c :: a :: body, bodies, rest, rfl, ?_, hlength, ?_, hbodies⟩
    · simp
      omega
    · refine .char ?_ ?_ hbody
      · rintro ⟨_, heq⟩
        cases heq
        exact hclose _ rfl rfl
      · rintro - ⟨_, heq⟩
        cases heq
        exact hopen _ rfl rfl

theorem lineComment_of_starts {body rest : List Char}
    (h : startsLineComment d (c :: (body ++ rest))) (hc : c ≠ '\n') (hbody : '\n' ∉ body)
    (hrest : rest = [] ∨ ∃ rest', rest = '\n' :: rest') : LineComment d (c :: body) := by
  have hsingle : '\n' ∉ c :: body := by simp [hc.symm, hbody]
  generalize hcs : c :: (body ++ rest) = cs at h
  unfold startsLineComment at h
  split at h
  · rename_i cs
    cases body with
    | nil =>
      obtain rfl | ⟨rest', rfl⟩ := hrest <;> simp at hcs
    | cons c' body =>
      cases hcs
      refine ⟨.inr ⟨body, rfl, ?_⟩, hsingle⟩
      intro hspace
      rw [hspace] at h
      cases body with
      | nil => rfl
      | cons c' body => simpa using h
  · cases hcs
    exact ⟨.inl ⟨⟨body, rfl⟩, h⟩, hsingle⟩
  · contradiction

theorem gapItem?_cases {more : Nat} (h : gapItem? d c cs = some more) :
    ∃ item rest, cs = item ++ rest ∧ item.length = more ∧
      (Text.isBlank c ∧ item = [] ∨
        LineComment d (c :: item) ∧ (rest = [] ∨ ∃ rest', rest = '\n' :: rest') ∨
        ∃ body, c :: item = '/' :: '*' :: body ∧ CommentBody d.nestedBlockComments body) := by
  unfold gapItem? at h
  split at h
  · rename_i hblank
    cases h
    exact ⟨[], cs, rfl, rfl, .inl ⟨hblank, rfl⟩⟩
  · rename_i hblank
    split at h
    · rename_i hline
      cases h
      have hcs := List.takeWhile_append_dropWhile (p := (· ≠ '\n')) (l := cs)
      have hitem : '\n' ∉ cs.takeWhile (· ≠ '\n') := by
        intro hmem
        simpa using List.all_eq_true.1 List.all_takeWhile _ hmem
      have hrest : cs.dropWhile (· ≠ '\n') = [] ∨
          ∃ rest', cs.dropWhile (· ≠ '\n') = '\n' :: rest' := by
        have hhead := List.head?_dropWhile_not (· ≠ '\n') cs
        cases h : cs.dropWhile (· ≠ '\n') with
        | nil => exact .inl rfl
        | cons c rest =>
          rw [h] at hhead
          simp at hhead
          exact .inr ⟨rest, by rw [hhead]⟩
      refine ⟨_, _, hcs.symm, rfl, .inr (.inl ⟨?_, hrest⟩)⟩
      refine lineComment_of_starts (by rw [hcs]; exact hline) ?_ hitem hrest
      rintro rfl
      exact hblank (by decide)
    · split at h
      · rename_i rest _
        obtain ⟨body, bodies, rest', rfl, rfl, hlength, hbody, -⟩ := exists_bodies_of_commentEnd? h
        cases List.eq_nil_of_length_eq_zero hlength
        refine ⟨'*' :: body, rest', rfl, ?_, .inr (.inr ⟨body, rfl, hbody⟩)⟩
        simp
        omega
      · contradiction

theorem gap_take_gapLength (d : Dialect) (cs : List Char) :
    Gap d (cs.drop (gapLength d cs)).isEmpty (cs.take (gapLength d cs)) := by
  induction hlen : cs.length using Nat.strongRecOn generalizing cs with
  | ind n ih =>
  cases cs with
  | nil =>
    rw [List.take_nil]
    exact .nil
  | cons c cs =>
    cases hitem : gapItem? d c cs with
    | none =>
      rw [gapLength_none hitem]
      exact .nil
    | some more =>
      obtain ⟨item, rest, rfl, rfl, hcases⟩ := gapItem?_cases hitem
      have hlength : gapLength d (c :: (item ++ rest)) =
          (c :: item).length + gapLength d rest := by
        rw [gapLength_some hitem, List.drop_left, List.length_cons]
      rw [hlength, ← List.cons_append, List.take_length_add_append, List.drop_length_add_append]
      have hrest : rest.length < n := by
        rw [← hlen, List.length_cons, List.length_append]
        omega
      have hgap := ih _ hrest rest rfl
      obtain ⟨hblank, rfl⟩ | ⟨hline, rfl | ⟨rest', rfl⟩⟩ | ⟨body, heq, hbody⟩ := hcases
      · exact .blank hblank hgap
      · rw [List.take_nil, List.append_nil]
        exact .lastLine (by simp) hline
      · rw [gapLength_blank (c := '\n') (by decide), Nat.add_comm, List.take_succ_cons,
          List.drop_succ_cons]
        exact .line hline (ih _ (Nat.lt_of_succ_lt hrest) rest' rfl)
      · rw [heq]
        exact .block hbody hgap

def stopOf (start : Nat) (ts : List Token) : Nat :=
  (ts.getLast?.map (·.span.stop)).getD start

theorem stopOf_cons (start : Nat) (t : Token) (ts : List Token) :
    stopOf start (t :: ts) = stopOf t.span.stop ts := by
  unfold stopOf
  rw [List.getLast?_cons]
  cases ts.getLast? <;> rfl

theorem gap_of_scan {text behind cs : List Char} (htext : text = behind ++ cs)
    (before : Option Char) {us vs : List Token} {t : Token}
    (h : scan d (byteLength behind) before cs ++ [eof (byteLength text)] = us ++ t :: vs) :
    ∃ front gap rest, text = front ++ gap ++ rest ∧
      byteLength front = stopOf (byteLength behind) us ∧
      byteLength (front ++ gap) = t.span.start ∧ Gap d vs.isEmpty gap := by
  induction us generalizing behind cs before with
  | nil =>
    have hgap := gap_take_gapLength d cs
    have hcs := List.take_append_drop (gapLength d cs) cs
    refine ⟨behind, cs.take (gapLength d cs), cs.drop (gapLength d cs), ?_, rfl, ?_⟩
    · rw [htext, List.append_assoc, hcs]
    cases hdrop : cs.drop (gapLength d cs) with
    | nil =>
      rw [hdrop] at hgap
      rw [hdrop, List.append_nil] at hcs
      rw [scan_nil hdrop] at h
      cases h
      rw [hcs, ← htext]
      rw [hcs] at hgap
      exact ⟨rfl, hgap⟩
    | cons c rest =>
      rw [hdrop] at hgap
      rw [scan_cons rfl hdrop rfl, List.cons_append, List.nil_append] at h
      obtain ⟨rfl, hvs⟩ := List.cons.inj h
      have hne : vs.isEmpty = false := by
        rw [← hvs, List.isEmpty_eq_false_iff]
        exact List.append_ne_nil_of_right_ne_nil _ (List.cons_ne_nil _ _)
      rw [hne]
      exact ⟨byteLength_append _ _, hgap⟩
  | cons u us ih =>
    cases hdrop : cs.drop (gapLength d cs) with
    | nil =>
      rw [scan_nil hdrop] at h
      simp at h
    | cons c rest =>
      rw [scan_cons rfl hdrop rfl] at h
      generalize lexeme d _ c rest = l at h
      have hstop : byteLength behind + byteLength (cs.take (gapLength d cs)) +
            byteLength (c :: rest.take l.more) =
          byteLength (behind ++ cs.take (gapLength d cs) ++ c :: rest.take l.more) := by
        simp [Nat.add_assoc]
      rw [hstop, List.cons_append, List.cons_append] at h
      obtain ⟨rfl, hrest⟩ := List.cons.inj h
      rw [stopOf_cons]
      refine ih ?_ _ hrest
      rw [htext, List.append_assoc, List.append_assoc, List.cons_append, List.take_append_drop,
        ← hdrop, List.take_append_drop]

/--
The end of the text is marked once, last. All other tokens take some of the text, one behind the
other, and in front of each token there is nothing but a gap.
-/
theorem tokenize_tiles (d : Dialect) (source : String) :
    ∃ ts, tokenize d source = ts ++ [eof source.utf8ByteSize] ∧
      (∀ t ∈ ts, t.kind ≠ .eof ∧ t.span.start < t.span.stop ∧ t.span.On source.toList) ∧
      (tokenize d source).Pairwise (fun s t => s.span.stop ≤ t.span.start) ∧
      ∀ before t after, tokenize d source = before ++ t :: after →
        ∃ front gap rest, source.toList = front ++ gap ++ rest ∧
          byteLength front = stopOf 0 before ∧ byteLength (front ++ gap) = t.span.start ∧
          Gap d after.isEmpty gap := by
  obtain ⟨ts, hts, hrow, htokens⟩ := exists_tokenize d source
  refine ⟨ts, hts, ?_, ?_, ?_⟩
  · intro t ht
    exact ⟨(htokens t ht).2, (spelled_of_tokenize hts t ht).lt, (htokens t ht).1⟩
  · rw [hts, List.pairwise_append]
    refine ⟨List.pairwise_map.1 hrow.pairwise, List.pairwise_singleton _ _, ?_⟩
    intro t ht u hu
    rw [List.mem_singleton.1 hu]
    exact (hrow.bounds (List.mem_map_of_mem ht)).2.2
  · intro before t after h
    unfold tokenize at h
    rw [← byteLength_toList] at h
    exact gap_of_scan (List.nil_append source.toList).symm none h

end Token

end SqlScript
