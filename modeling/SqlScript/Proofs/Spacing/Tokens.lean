import SqlScript.Proofs.Joined.Tokens
import SqlScript.Proofs.Lookahead
import SqlScript.Proofs.Spacing.Lexeme
import SqlScript.Proofs.Tiling

/-!
A text whose tokens are written one behind the other, with a space between: it has the same tokens.
-/

namespace SqlScript

namespace Token

variable {d : Dialect} {source : String}

/--
The tokens of a text, all but the end of it, with a space between.
-/
def respaced (d : Dialect) (source : String) : String :=
  " ".intercalate (((tokenize d source).filter (!·.isEof)).map (·.text source))

def Alone (d : Dialect) (kind : TokenKind) (piece : List Char) : Prop :=
  kind.isValid ∧ ∃ c cs, piece = c :: cs ∧ gapItem? d c cs = none ∧
    lexeme d false c cs = ⟨kind, cs.length⟩

instance (kind : TokenKind) (piece : List Char) : Decidable (Alone d kind piece) :=
  match piece with
  | [] => .isFalse fun ⟨_, _, _, hpiece, _⟩ => nomatch hpiece
  | c :: cs =>
    decidable_of_iff
      (kind.isValid ∧ gapItem? d c cs = none ∧ lexeme d false c cs = ⟨kind, cs.length⟩)
      ⟨fun ⟨hvalid, hitem⟩ => ⟨hvalid, c, cs, rfl, hitem⟩,
        fun ⟨hvalid, _, _, hpiece, hitem⟩ => ⟨hvalid, by cases hpiece; exact hitem⟩⟩

theorem munch_dashes : munch ['-', '-'] ≠ ['-', '-'] := by
  decide

theorem more_dashes (d : Dialect) (glued : Bool) (cs : List Char) :
    (lexeme d glued '-' ('-' :: cs)).more ≠ 1 := by
  have hlexeme : lexeme d glued '-' ('-' :: cs) =
      if d.customOperators then customOperator '-' ('-' :: cs)
      else fixedOperator '-' ('-' :: cs) := by
    unfold lexeme
    rfl
  have hdashes : ∀ op : List Char, op <+: '-' :: '-' :: cs → op.length = 2 → op = ['-', '-'] := by
    intro op hop hlength
    rw [List.prefix_iff_eq_take.1 hop, hlength]
    rfl
  rw [hlexeme]
  split
  · have hpre : munch (('-' :: '-' :: cs).takeWhile isOperatorChar) <+: '-' :: '-' :: cs :=
      (isPrefix_munch _).trans (List.takeWhile_prefix _)
    rw [more_customOperator]
    intro hmore
    have hop := hdashes _ hpre (by omega)
    have hmunch := munch_munch (('-' :: '-' :: cs).takeWhile isOperatorChar)
    rw [hop] at hmunch
    exact munch_dashes hmunch
  · unfold fixedOperator
    split
    · rename_i text kind hfind
      have hpre := List.find?_some hfind
      have hnames : ∀ op ∈ fixedOperators, op.1.toList ≠ ['-', '-'] := by decide
      intro hmore
      refine hnames _ (List.mem_of_find?_eq_some hfind) (hdashes _ ?_ ?_)
      · exact List.isPrefixOf_iff_prefix.1 hpre
      · have hmore : text.length - 1 = 1 := hmore
        rw [String.length_toList]
        change text.length = 2
        omega
    · simp

theorem startsLineComment_take {c : Char} {cs : List Char} {n : Nat}
    (h : startsLineComment d (c :: cs) = false)
    (hdashes : d.dashCommentNeedsSpace → c :: cs.take n ≠ ['-', '-']) :
    startsLineComment d (c :: cs.take n) = false := by
  rw [← Bool.not_eq_true] at h ⊢
  intro hstarts
  apply h
  unfold startsLineComment at hstarts
  split at hstarts
  · rename_i body heq
    obtain ⟨rfl, htake⟩ := List.cons.inj heq
    obtain ⟨rest, rfl⟩ : ∃ rest, cs = '-' :: rest := by
      cases cs with
      | nil => simp at htake
      | cons c rest =>
        cases n with
        | zero => simp at htake
        | succ n =>
          rw [List.take_succ_cons] at htake
          cases htake
          exact ⟨rest, rfl⟩
    unfold startsLineComment
    cases rest with
    | nil => simp
    | cons a rest =>
      obtain _ | _ | n := n
      · simp at htake
      · cases hspace : d.dashCommentNeedsSpace with
        | true => exact absurd rfl (hdashes hspace)
        | false => rfl
      · cases htake
        exact hstarts
  · rename_i heq
    cases heq
    exact hstarts
  · contradiction

theorem gapItem?_take {glued : Bool} {c : Char} {cs : List Char} {n : Nat}
    (h : gapItem? d c cs = none) (hvalid : (lexeme d glued c cs).kind.isValid)
    (hdashes : d.dashCommentNeedsSpace → c :: cs.take n ≠ ['-', '-']) :
    gapItem? d c (cs.take n) = none := by
  have hcomment := not_comment_of_isValid hvalid
  unfold gapItem? at h ⊢
  split at h
  · contradiction
  · rename_i hblank
    split at h
    · contradiction
    · rename_i hline
      rw [if_neg hblank, startsLineComment_take (Bool.not_eq_true _ ▸ hline) hdashes]
      split
      · contradiction
      · split
        · rename_i rest htake
          exfalso
          apply hcomment
          refine ⟨rfl, ?_⟩
          have hhead := congrArg List.head? htake
          rw [List.head?_take] at hhead
          split at hhead
          · contradiction
          · exact hhead
        · rfl

theorem cons_take_ne_dashes {glued : Bool} {c : Char} {cs : List Char}
    (h : (lexeme d glued c cs).more ≤ cs.length) :
    c :: cs.take (lexeme d glued c cs).more ≠ ['-', '-'] := by
  intro heq
  have hmore : (lexeme d glued c cs).more = 1 := by
    have hlength := congrArg List.length heq
    rw [List.length_cons, List.length_take, Nat.min_eq_left h] at hlength
    exact Nat.succ.inj hlength
  rw [hmore] at heq
  obtain ⟨rfl, htake⟩ := List.cons.inj heq
  cases cs with
  | nil => contradiction
  | cons a rest =>
    cases htake
    exact more_dashes d glued rest hmore

theorem alone_of_lexeme {glued : Bool} {c : Char} {cs : List Char} {l : Lexeme}
    (hgap : gapItem? d c cs = none) (hl : lexeme d glued c cs = l) (hvalid : l.kind.isValid) :
    Alone d l.kind (c :: cs.take l.more) := by
  subst hl
  have hkept := (lexeme_blank (d := d) (show Char.isWhitespace ' ' by decide) glued c cs [] hvalid).2
  refine ⟨hvalid, c, _, rfl, gapItem?_take hgap hvalid fun _ => cons_take_ne_dashes hkept, ?_⟩
  rw [lexeme_take_alone rfl hvalid, List.length_take, Nat.min_eq_left hkept]

theorem Stands.alone {t : Token} (h : t.Stands d source) (hvalid : t.kind.isValid) :
    Alone d t.kind (t.text source).toList := by
  obtain ⟨behind, c, rest, glued, hsource, hgap, rfl⟩ := h
  have htext : source.toList = behind ++ (c :: rest.take (lexeme d glued c rest).more) ++
      rest.drop (lexeme d glued c rest).more := by
    rw [hsource]
    simp
  unfold Token.text
  rw [Span.slice_eq htext, String.toList_ofList]
  exact alone_of_lexeme hgap rfl hvalid

theorem Alone.spaced {kind : TokenKind} {piece : List Char} (h : Alone d kind piece) {ext : List Char}
    (hext : ext = [] ∨ ∃ ext', ext = ' ' :: ext') :
    ∃ c cs, piece = c :: cs ∧ gapItem? d c (cs ++ ext) = none ∧
      lexeme d false c (cs ++ ext) = ⟨kind, cs.length⟩ := by
  obtain ⟨hvalid, c, cs, rfl, hgap, hlexeme⟩ := h
  refine ⟨c, cs, rfl, ?_⟩
  have hspace : Char.isWhitespace ' ' := by decide
  have hvalid' : (lexeme d false c cs).kind.isValid := by
    rw [hlexeme]
    exact hvalid
  obtain rfl | ⟨ext, rfl⟩ := hext
  · rw [List.append_nil]
    exact ⟨hgap, hlexeme⟩
  · rw [(lexeme_blank hspace false c cs ext hvalid').1]
    exact ⟨gapItem?_blank_none hspace hgap (not_comment_of_isValid hvalid') ext, hlexeme⟩

theorem scan_piece {kind : TokenKind} {c : Char} {cs ext : List Char} {glued : Bool}
    (hgap : gapItem? d c (cs ++ ext) = none)
    (hlexeme : lexeme d glued c (cs ++ ext) = ⟨kind, cs.length⟩) (offset : Nat)
    {before : Option Char} (hbefore : before.any endsName = glued) :
    ∃ last, scan d offset before (c :: (cs ++ ext)) =
      ⟨kind, offset, offset + byteLength (c :: cs)⟩ ::
        scan d (offset + byteLength (c :: cs)) last ext := by
  have hdrop : (c :: (cs ++ ext)).drop (gapLength d (c :: (cs ++ ext))) = c :: (cs ++ ext) := by
    rw [gapLength_none hgap, List.drop_zero]
  have htake : (c :: (cs ++ ext)).take (gapLength d (c :: (cs ++ ext))) = [] := by
    rw [gapLength_none hgap, List.take_zero]
  have hlexeme' : lexeme d ((([] : List Char).getLast?.or before).any endsName) c (cs ++ ext) =
      ⟨kind, cs.length⟩ := by
    rw [List.getLast?_nil, Option.none_or, hbefore]
    exact hlexeme
  rw [scan_cons htake hdrop hlexeme']
  dsimp only
  rw [List.take_left, List.drop_left, byteLength_nil, Nat.add_zero]
  exact ⟨_, rfl⟩

theorem scan_spaced {kind : TokenKind} {piece : List Char} (h : Alone d kind piece) (offset : Nat)
    (before : Option Char) (hbefore : before.any endsName = false) (cs : List Char) :
    scan d offset before (piece ++ ' ' :: cs) =
      ⟨kind, offset, offset + byteLength piece⟩ ::
        scan d (offset + byteLength piece + 1) (some ' ') cs := by
  obtain ⟨c, rest, rfl, hgap, hlexeme⟩ := h.spaced (.inr ⟨cs, rfl⟩)
  obtain ⟨last, hscan⟩ := scan_piece hgap hlexeme offset hbefore
  rw [List.cons_append, hscan, scan_blank (by decide)]

/--
A text that is written token by token, with a blank here and there. What is in front of it ends a name
if it is `glued` to that.
-/
inductive Written (d : Dialect) : Bool → List Char → List (TokenKind × String) → Prop
  | nil {glued : Bool} : Written d glued [] []
  | blank {glued : Bool} {cs : List Char} {pieces : List (TokenKind × String)} :
    Written d false cs pieces → Written d glued (' ' :: cs) pieces
  | token {glued : Bool} {kind : TokenKind} {text : String} {c : Char} {cs ext : List Char}
    {pieces : List (TokenKind × String)} :
    text.toList = c :: cs →
    gapItem? d c (cs ++ ext) = none →
    lexeme d glued c (cs ++ ext) = ⟨kind, cs.length⟩ →
    (∀ glued, Written d glued ext pieces) →
    Written d glued (text.toList ++ ext) ((kind, text) :: pieces)

theorem Written.scan_eq {glued : Bool} {cs : List Char} {pieces : List (TokenKind × String)}
    (h : Written d glued cs pieces) {behind : List Char} (hsource : source.toList = behind ++ cs)
    {before : Option Char} (hbefore : before.any endsName = glued) :
    (scan d (byteLength behind) before cs).map (fun t => (t.kind, t.text source)) = pieces := by
  induction h generalizing behind before with
  | nil => rw [scan_nil List.drop_nil, List.map_nil]
  | @blank _ cs _ _ ih =>
    have hbytes : byteLength behind + 1 = byteLength (behind ++ [' ']) := by
      simp [Char.utf8Size]
    rw [scan_blank (by decide), hbytes]
    apply ih
    · rw [hsource, List.append_cons]
    · rfl
  | @token _ kind text c cs ext _ htext hgap hlexeme _ ih =>
    obtain ⟨last, hscan⟩ := scan_piece hgap hlexeme (byteLength behind) hbefore
    have hsource' : source.toList = behind ++ text.toList ++ ext := by
      rw [hsource, List.append_assoc]
    have hrest := ih (last.any endsName) hsource' rfl
    rw [htext] at hrest hsource' ⊢
    rw [List.cons_append, hscan, List.map_cons, ← byteLength_append, hrest]
    unfold Token.text
    rw [Span.slice_eq hsource', ← htext, String.ofList_toList]

theorem Alone.written {kind : TokenKind} {text : String} (h : Alone d kind text.toList)
    {ext : List Char} (hext : ext = [] ∨ ∃ ext', ext = ' ' :: ext')
    {pieces : List (TokenKind × String)} (hrest : ∀ glued, Written d glued ext pieces) :
    Written d false (text.toList ++ ext) ((kind, text) :: pieces) := by
  obtain ⟨c, cs, htext, hgap, hlexeme⟩ := h.spaced hext
  exact .token htext hgap hlexeme hrest

theorem written_intercalate (pieces : List (TokenKind × String))
    (h : ∀ piece ∈ pieces, Alone d piece.1 piece.2.toList) :
    Written d false ([' '].intercalate (pieces.map (·.2.toList))) pieces := by
  induction pieces with
  | nil => exact .nil
  | cons piece pieces ih =>
    obtain ⟨hpiece, hpieces⟩ := List.forall_mem_cons.1 h
    cases pieces with
    | nil => simpa using hpiece.written (.inl rfl) fun _ => .nil
    | cons next pieces =>
      have hrest := hpiece.written (.inr ⟨_, rfl⟩) fun _ => .blank (ih hpieces)
      simpa [List.intercalate_cons_cons] using hrest

theorem filter_tokenize (d : Dialect) (source : String) :
    (tokenize d source).filter (!·.isEof) = scan d 0 none source.toList := by
  have hscan : ∀ t ∈ scan d 0 none source.toList, !t.isEof := by
    intro t ht
    have hne := scan_ne_eof 0 none source.toList t ht
    rw [Bool.not_eq_true', Bool.eq_false_iff]
    exact fun heof => hne (TokenKind.eq_eof_of_alike heof)
  unfold tokenize
  rw [List.filter_append, List.filter_eq_self.2 hscan]
  simp [isEof, eof]

theorem text_eof (source : String) : (eof source.utf8ByteSize).text source = "" := by
  have hsource : source.toList = source.toList ++ [] ++ [] := by simp
  have hslice := Span.slice_eq hsource
  rw [List.append_nil, byteLength_toList] at hslice
  exact hslice

theorem tokenize_respaced (h : ∀ t ∈ tokenize d source, t.kind.isValid) :
    (tokenize d (respaced d source)).map (fun t => (t.kind, t.text (respaced d source))) =
      (tokenize d source).map fun t => (t.kind, t.text source) := by
  have hscan : ∀ t ∈ scan d 0 none source.toList, Alone d t.kind (t.text source).toList := by
    intro t ht
    refine (scan_stands (List.nil_append source.toList).symm none t ht).alone (h t ?_)
    exact List.mem_append_left _ ht
  generalize hpieces : (scan d 0 none source.toList).map (fun t => (t.kind, t.text source)) = pieces
  have halone : ∀ piece ∈ pieces, Alone d piece.1 piece.2.toList := by
    subst hpieces
    intro piece hpiece
    obtain ⟨t, ht, rfl⟩ := List.mem_map.1 hpiece
    exact hscan t ht
  have htext : (respaced d source).toList = [] ++ [' '].intercalate (pieces.map (·.2.toList)) := by
    unfold respaced
    rw [filter_tokenize, ← hpieces, String.toList_intercalate, List.map_map, List.map_map,
      List.nil_append]
    rfl
  have htokens := (written_intercalate pieces halone).scan_eq htext
    (show none.any endsName = false from rfl)
  rw [List.nil_append] at htext
  rw [← htext] at htokens
  unfold tokenize
  rw [List.map_append, List.map_append, hpieces]
  change _ ++ [(TokenKind.eof, _)] = _ ++ [(TokenKind.eof, _)]
  rw [text_eof, text_eof]
  rw [← htokens]
  rfl

end Token

end SqlScript
