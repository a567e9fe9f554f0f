import SqlScript.Proofs.Recased.Lexeme
import SqlScript.Proofs.Recast.Tree
import SqlScript.Proofs.Spacing.Tokens

/-!
The tokens of texts that differ in the case of letters of bare words only. Bare words are keywords and
unquoted names; what is written otherwise is told by its exact text.
-/

namespace SqlScript

open SqlScript.Text

namespace Token

variable {d : Dialect}

theorem commentEnd?_map (nested : Bool) (depth n : Nat) (cs : List Char) :
    commentEnd? nested depth n (cs.map Char.toUpper) = commentEnd? nested depth n cs := by
  have hstar : ∀ c : Char, c.toUpper = '*' ↔ c = '*' := Caseless.toUpper_eq_iff (by decide)
  have hslash : ∀ c : Char, c.toUpper = '/' ↔ c = '/' := Caseless.toUpper_eq_iff (by decide)
  fun_induction commentEnd? nested depth n cs with
  | case1 => rfl
  | case2 n rest =>
    rw [List.map_cons, List.map_cons, (hstar _).2 rfl, (hslash _).2 rfl, commentEnd?]
  | case3 n rest depth ih =>
    rw [List.map_cons, List.map_cons, (hstar _).2 rfl, (hslash _).2 rfl, commentEnd?]
    exact ih
  | case4 depth n rest hnested ih =>
    rw [List.map_cons, List.map_cons, (hstar _).2 rfl, (hslash _).2 rfl, commentEnd?, if_pos hnested]
    exact ih
  | case5 depth n rest hnested ih =>
    rw [List.map_cons, (hstar _).2 rfl] at ih
    rw [List.map_cons, List.map_cons, (hstar _).2 rfl, (hslash _).2 rfl, commentEnd?, if_neg hnested]
    exact ih
  | case6 depth n c cs hclose hopen ih =>
    rw [List.map_cons, commentEnd?]
    · exact ih
    · intro rest hc hcs
      obtain ⟨a, rest, rfl, ha, -⟩ := List.map_eq_cons_iff.1 hcs
      exact hclose rest ((hstar c).1 hc) (by rw [(hslash a).1 ha])
    · intro rest hc hcs
      obtain ⟨a, rest, rfl, ha, -⟩ := List.map_eq_cons_iff.1 hcs
      exact hopen rest ((hslash c).1 hc) (by rw [(hstar a).1 ha])

theorem startsLineComment_eq (d : Dialect) (cs : List Char) :
    startsLineComment d cs =
      (cs.head? == some '-' && cs.tail.head? == some '-' &&
          (!d.dashCommentNeedsSpace || cs.tail.tail.head?.all isBlank) ||
        cs.head? == some '#' && d.hashComments) := by
  unfold startsLineComment
  split
  · rename_i cs
    cases cs <;> simp
  · simp
  · rename_i hdashes hhash
    match cs with
    | [] => rfl
    | [c] => simp_all
    | c :: next :: rest =>
      have hdashes : ¬(c = '-' ∧ next = '-') := fun h => hdashes rest (by rw [h.1, h.2])
      have hhash : c ≠ '#' := fun h => hhash (next :: rest) (by rw [h])
      simp_all

theorem startsLineComment_map (cs : List Char) :
    startsLineComment d (cs.map Char.toUpper) = startsLineComment d cs := by
  have hblank : Caseless isBlank := by decide
  have hall : ∀ cs : List Char, (cs.map Char.toUpper).head?.all isBlank = cs.head?.all isBlank := by
    intro cs
    cases cs with
    | nil => rfl
    | cons c cs => exact hblank.toUpper c
  rw [startsLineComment_eq, startsLineComment_eq, ← List.map_tail, ← List.map_tail,
    head?_beq_map (by decide), head?_beq_map (by decide), head?_beq_map (by decide), hall]

theorem gapItem?_map (c : Char) (cs : List Char) :
    gapItem? d c.toUpper (cs.map Char.toUpper) = gapItem? d c cs := by
  have hblank : Caseless isBlank := by decide
  have hnewline : Caseless fun c => decide (c ≠ '\n') := by decide
  have hstar : ∀ c : Char, c.toUpper = '*' ↔ c = '*' := Caseless.toUpper_eq_iff (by decide)
  have hslash : ∀ c : Char, c.toUpper = '/' ↔ c = '/' := Caseless.toUpper_eq_iff (by decide)
  unfold gapItem?
  rw [hblank.toUpper c, ← List.map_cons, startsLineComment_map, length_takeWhile_map hnewline]
  split
  · rfl
  · split
    · rfl
    · split
      · rename_i hc hcs
        obtain ⟨a, rest, rfl, ha, rfl⟩ := List.map_eq_cons_iff.1 hcs
        rw [(hslash c).1 hc, (hstar a).1 ha]
        exact commentEnd?_map _ _ _ rest
      · rename_i hopen
        split
        · exact (hopen _ rfl rfl).elim
        · rfl

theorem gapLength_map (cs : List Char) : gapLength d (cs.map Char.toUpper) = gapLength d cs := by
  induction hlen : cs.length using Nat.strongRecOn generalizing cs with
  | ind n ih =>
  cases cs with
  | nil => rfl
  | cons c cs =>
    rw [List.map_cons]
    have hitem := gapItem?_map (d := d) c cs
    cases h : gapItem? d c cs with
    | none => rw [gapLength_none h, gapLength_none (hitem.trans h)]
    | some more =>
      have hlt : (cs.drop more).length < n := by
        rw [← hlen, List.length_drop, List.length_cons]
        omega
      rw [gapLength_some h, gapLength_some (hitem.trans h), ← List.map_drop, ih _ hlt _ rfl]

theorem gap_recased {cs cs' : List Char} (h : cs'.map Char.toUpper = cs.map Char.toUpper) :
    (cs'.take (gapLength d cs')).map Char.toUpper = (cs.take (gapLength d cs)).map Char.toUpper ∧
      (cs'.drop (gapLength d cs')).map Char.toUpper =
        (cs.drop (gapLength d cs)).map Char.toUpper := by
  have hgap : gapLength d cs' = gapLength d cs := congr_of_map gapLength_map h
  rw [List.map_take, List.map_take, List.map_drop, List.map_drop, h, hgap]
  exact ⟨rfl, rfl⟩

theorem getLast?_or_recased {cs cs' : List Char} {before before' : Option Char}
    (h : cs'.map Char.toUpper = cs.map Char.toUpper)
    (hbefore : before'.map Char.toUpper = before.map Char.toUpper) :
    (cs'.getLast?.or before').map Char.toUpper = (cs.getLast?.or before).map Char.toUpper := by
  rw [Option.map_or, Option.map_or, ← List.getLast?_map, ← List.getLast?_map, h, hbefore]

theorem byteLength_map (cs : List Char) : byteLength (cs.map Char.toUpper) = byteLength cs := by
  induction cs with
  | nil => rfl
  | cons c cs ih => rw [List.map_cons, byteLength_cons, byteLength_cons, utf8Size_toUpper, ih]

end Token

def Span.holds (s : Span) (offset : Nat) : Bool :=
  s.start ≤ offset && offset < s.stop

namespace Text

/--
A text, with `offset` bytes in front of it, in which the letters of some parts are put into capitals.
-/
def capitalize (parts : List Span) (offset : Nat) : List Char → List Char
  | [] => []
  | c :: cs =>
    (if parts.any (·.holds offset) then c.toUpper else c) ::
      capitalize parts (offset + c.utf8Size) cs

variable {parts : List Span} {offset : Nat} {cs cs' : List Char}

@[simp]
theorem length_capitalize (parts : List Span) (offset : Nat) (cs : List Char) :
    (capitalize parts offset cs).length = cs.length := by
  induction cs generalizing offset with
  | nil => rfl
  | cons c cs ih => rw [capitalize, List.length_cons, List.length_cons, ih]

theorem capitalize_append (cs ds : List Char) :
    capitalize parts offset (cs ++ ds) =
      capitalize parts offset cs ++ capitalize parts (offset + Token.byteLength cs) ds := by
  induction cs generalizing offset with
  | nil => rfl
  | cons c cs ih =>
    rw [List.cons_append, capitalize, capitalize, ih, Token.byteLength_cons, Nat.add_assoc,
      List.cons_append]

theorem map_capitalize (parts : List Span) (offset : Nat) (cs : List Char) :
    (capitalize parts offset cs).map Char.toUpper = cs.map Char.toUpper := by
  induction cs generalizing offset with
  | nil => rfl
  | cons c cs ih =>
    rw [capitalize, List.map_cons, List.map_cons, ih]
    split
    · rw [toUpper_toUpper]
    · rfl

theorem map_eq_of_capitalize (h : capitalize parts offset cs' = capitalize parts offset cs) :
    cs'.map Char.toUpper = cs.map Char.toUpper := by
  rw [← map_capitalize parts offset cs', h, map_capitalize]

theorem of_capitalize_append {a a' b b' : List Char}
    (h : capitalize parts offset (a' ++ b') = capitalize parts offset (a ++ b))
    (ha : a'.map Char.toUpper = a.map Char.toUpper) :
    capitalize parts offset a' = capitalize parts offset a ∧
      capitalize parts (offset + Token.byteLength a) b' =
        capitalize parts (offset + Token.byteLength a) b := by
  rw [capitalize_append, capitalize_append, congr_of_map Token.byteLength_map ha] at h
  apply List.append_inj h
  rw [length_capitalize, length_capitalize, length_eq_of_map ha]

theorem capitalize_of_apart
    (h : ∀ s ∈ parts, s.stop ≤ offset ∨ offset + Token.byteLength cs ≤ s.start) :
    capitalize parts offset cs = cs := by
  induction cs generalizing offset with
  | nil => rfl
  | cons c cs ih =>
    rw [Token.byteLength_cons] at h
    have hsize := c.utf8Size_pos
    have hany : parts.any (·.holds offset) = false := by
      refine List.any_eq_false.2 fun s hs => ?_
      unfold Span.holds
      rw [Bool.and_eq_true, decide_eq_true_eq, decide_eq_true_eq]
      have := h s hs
      omega
    rw [capitalize, hany, ih]
    · rfl
    · intro s hs
      have := h s hs
      omega

theorem eq_of_capitalize_apart (h : capitalize parts offset cs' = capitalize parts offset cs)
    (hparts : ∀ s ∈ parts, s.stop ≤ offset ∨ offset + Token.byteLength cs ≤ s.start) : cs' = cs := by
  have hsize : Token.byteLength cs' = Token.byteLength cs :=
    congr_of_map Token.byteLength_map (map_eq_of_capitalize h)
  rwa [capitalize_of_apart hparts, capitalize_of_apart (hsize ▸ hparts)] at h

end Text

namespace Token

def bareSpans (ts : List Token) : List Span :=
  (ts.filter (·.kind.isBareWord)).map Token.span

variable {d : Dialect}

theorem bareSpans_cons (t : Token) (ts : List Token) :
    bareSpans (t :: ts) = (if t.kind.isBareWord then [t.span] else []) ++ bareSpans ts := by
  unfold bareSpans
  rw [List.filter_cons]
  split <;> rfl

theorem le_of_mem_bareSpans {behind cs : List Char} {before : Option Char} {s : Span}
    (h : s ∈ bareSpans (scan d (byteLength behind) before cs)) : byteLength behind ≤ s.start := by
  obtain ⟨t, ht, rfl⟩ := List.mem_map.1 h
  have hrow := (scan_spans (d := d) (rfl : behind ++ cs = behind ++ cs) before).1
  exact (hrow.bounds (List.mem_map_of_mem (List.mem_filter.1 ht).1)).1

theorem bareSpans_scan {offset : Nat} {before : Option Char} {cs gap rest : List Char} {c : Char}
    {l : Lexeme} (hgap : cs.take (gapLength d cs) = gap) (hdrop : cs.drop (gapLength d cs) = c :: rest)
    (hl : lexeme d ((gap.getLast?.or before).any endsName) c rest = l) {stop : Nat}
    (hstop : offset + byteLength gap + byteLength (c :: rest.take l.more) = stop) :
    bareSpans (scan d offset before cs) =
      (if l.kind.isBareWord then [⟨offset + byteLength gap, stop⟩] else []) ++
        bareSpans (scan d stop ((rest.take l.more).getLast?.or (some c)) (rest.drop l.more)) := by
  rw [scan_cons hgap hdrop hl, bareSpans_cons, hstop]

theorem Lexeme.Retained.folded_eq {parts front behind : List Span} {start stop : Nat} {c c' : Char}
    {rest rest' : List Char} {l l' : Lexeme} (h : Lexeme.Retained c rest c' rest' l l')
    (hparts : parts =
      front ++ ((if l.kind.isBareWord then [⟨start, stop⟩] else []) ++ behind))
    (hfront : ∀ s ∈ front, s.stop ≤ start) (hbehind : ∀ s ∈ behind, stop ≤ s.start)
    (hstop : start + byteLength (c :: rest.take l.more) = stop)
    (hwritten : capitalize parts start (c' :: rest'.take l.more) =
      capitalize parts start (c :: rest.take l.more)) : l'.folded = l.folded := by
  apply h
  intro hbare
  apply List.cons.inj
  apply eq_of_capitalize_apart hwritten
  rw [hparts, hbare, hstop]
  intro s hs
  obtain hs | hs := List.mem_append.1 hs
  · exact .inl (hfront s hs)
  · exact .inr (hbehind s hs)

/-- Texts that differ in the case of letters of bare words only have the same tokens, up to the case
of bare names. The parts in `front` are those of the bare words that have been read before. -/
theorem scan_recased {parts front : List Span} {behind cs cs' : List Char}
    {before before' : Option Char}
    (hparts : parts = front ++ bareSpans (scan d (byteLength behind) before cs))
    (hfront : ∀ s ∈ front, s.stop ≤ byteLength behind)
    (hbefore : before'.map Char.toUpper = before.map Char.toUpper)
    (hcs : capitalize parts (byteLength behind) cs' = capitalize parts (byteLength behind) cs) :
    (scan d (byteLength behind) before' cs').map (recast .folding) =
      (scan d (byteLength behind) before cs).map (recast .folding) := by
  induction hlen : cs.length using Nat.strongRecOn generalizing behind front cs cs' before before' with
  | ind n ih =>
  obtain ⟨htakes, hdrops⟩ := gap_recased (d := d) (map_eq_of_capitalize hcs)
  generalize hgap' : cs'.take (gapLength d cs') = gap' at htakes
  generalize hgap : cs.take (gapLength d cs) = gap at htakes
  cases hdrop : cs.drop (gapLength d cs) with
  | nil =>
    rw [hdrop, List.map_nil, List.map_eq_nil_iff] at hdrops
    rw [scan_nil hdrop, scan_nil hdrops]
  | cons c rest =>
    rw [hdrop, List.map_cons] at hdrops
    obtain ⟨c', rest', hdrop', hc, hrest⟩ := List.map_eq_cons_iff.1 hdrops
    have hglued : (gap'.getLast?.or before').any endsName = (gap.getLast?.or before).any endsName := by
      rw [← any_map (p := endsName) (by decide), getLast?_or_recased htakes hbefore,
        any_map (by decide)]
    generalize hl : lexeme d ((gap.getLast?.or before).any endsName) c rest = l
    generalize hl' : lexeme d ((gap'.getLast?.or before').any endsName) c' rest' = l'
    have hretained : Lexeme.Retained c rest c' rest' l l' := by
      rw [← hl, ← hl', hglued]
      exact lexeme_recased hc hrest _
    have hsplit : cs = gap ++ (c :: rest.take l.more ++ rest.drop l.more) := by
      rw [List.cons_append, List.take_append_drop, ← hdrop, ← hgap, List.take_append_drop]
    have hsplit' : cs' = gap' ++ (c' :: rest'.take l.more ++ rest'.drop l.more) := by
      rw [List.cons_append, List.take_append_drop, ← hdrop', ← hgap', List.take_append_drop]
    have htail : (c' :: rest'.take l.more).map Char.toUpper =
        (c :: rest.take l.more).map Char.toUpper := by
      rw [List.map_cons, List.map_cons, hc, List.map_take, List.map_take, hrest]
    have hstop : byteLength behind + byteLength gap + byteLength (c :: rest.take l.more) =
        byteLength (behind ++ gap ++ c :: rest.take l.more) := by
      rw [byteLength_append, byteLength_append]
    obtain ⟨htoken, hbehind⟩ :=
      of_capitalize_append (of_capitalize_append (hsplit ▸ hsplit' ▸ hcs) htakes).2 htail
    have hparts' := hparts.trans (congrArg (front ++ ·) (bareSpans_scan hgap hdrop hl hstop))
    have hle : ∀ s ∈ front, s.stop ≤ byteLength behind + byteLength gap :=
      fun s hs => Nat.le_add_right_of_le (hfront s hs)
    obtain ⟨hkind, hmore⟩ := Lexeme.mk.inj
      (hretained.folded_eq hparts' hle (fun _ => le_of_mem_bareSpans) hstop htoken)
    rw [scan_cons hgap hdrop hl, scan_cons hgap' hdrop' hl', List.map_cons, List.map_cons,
      show l'.more = l.more from hmore, congr_of_map byteLength_map htail,
      congr_of_map byteLength_map htakes, hstop]
    refine congrArg₂ _ ?_ (ih _ ?_ (hparts'.trans (List.append_assoc _ _ _).symm) ?_ ?_ ?_ rfl)
    · unfold recast Recast.folding
      dsimp only
      rw [show l'.kind.folded = l.kind.folded from hkind]
    · rw [← hlen, hsplit]
      simp
      omega
    · rw [← hstop]
      refine List.forall_mem_append.2 ⟨fun s hs => Nat.le_add_right_of_le (hle s hs), ?_⟩
      split <;> simp
    · exact getLast?_or_recased (List.cons.inj htail).2 (congrArg some hc)
    · rw [← hstop]
      exact hbehind

def bareWords (d : Dialect) (source : String) : List Span :=
  bareSpans (tokenize d source)

/--
The second text differs from the first one only in the case of letters in keywords and unquoted
names: they are the same once those of the first are in capitals.
-/
def Recased (d : Dialect) (source source' : String) : Prop :=
  capitalize (bareWords d source) 0 source'.toList = capitalize (bareWords d source) 0 source.toList

instance (d : Dialect) (source source' : String) : Decidable (Recased d source source') :=
  inferInstanceAs (Decidable (_ = _))

variable {source source' : String}

theorem toUpper_of_recased (h : Recased d source source') : source'.toUpper = source.toUpper := by
  rw [← String.toList_inj, toList_toUpper, toList_toUpper]
  exact map_eq_of_capitalize h

theorem tokenize_recased (h : Recased d source source') :
    (tokenize d source').map (recast .folding) = (tokenize d source).map (recast .folding) := by
  have hparts : bareWords d source = [] ++ bareSpans (scan d 0 none source.toList) := by
    unfold bareWords bareSpans tokenize
    rw [List.filter_append]
    simp [eof, TokenKind.isBareWord]
  have hsize : source'.utf8ByteSize = source.utf8ByteSize := by
    rw [← byteLength_toList, ← byteLength_toList,
      congr_of_map byteLength_map (map_eq_of_capitalize h)]
  unfold tokenize
  rw [List.map_append, List.map_append, hsize]
  refine congrArg (· ++ _) ?_
  exact @scan_recased d _ [] [] _ _ none none hparts (List.forall_mem_nil _) rfl h

end Token

end SqlScript
