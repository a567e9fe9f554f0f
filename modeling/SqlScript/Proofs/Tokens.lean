import SqlScript.Proofs.Lexeme
import SqlScript.Source.Span

/-!
Where the tokens of a text lie: their spans, one behind the other.
-/

namespace SqlScript.Span

/--
The spans lie between two offsets, none runs backwards, and each ends before the next one starts.
-/
def Row : Nat → List Span → Nat → Prop
  | start, [], stop => start ≤ stop
  | start, s :: ss, stop => start ≤ s.start ∧ s.start ≤ s.stop ∧ Row s.stop ss stop

namespace Row

variable {a b m : Nat} {s t : Span} {ss ts : List Span}

theorem le (h : Row a ss b) : a ≤ b := by
  induction ss generalizing a with
  | nil => exact h
  | cons s ss ih =>
    have := ih h.2.2
    have := h.1
    have := h.2.1
    omega

theorem of_le (h : Row a ss b) {a' : Nat} (ha : a' ≤ a) : Row a' ss b := by
  cases ss with
  | nil => exact Nat.le_trans ha h
  | cons s ss => exact ⟨Nat.le_trans ha h.1, h.2⟩

theorem trans_le (h : Row a ss b) {b' : Nat} (hb : b ≤ b') : Row a ss b' := by
  induction ss generalizing a with
  | nil => exact Nat.le_trans h hb
  | cons s ss ih => exact ⟨h.1, h.2.1, ih h.2.2⟩

theorem append (hs : Row a ss m) (ht : Row m ts b) : Row a (ss ++ ts) b := by
  induction ss generalizing a with
  | nil => exact ht.of_le hs
  | cons s ss ih => exact ⟨hs.1, hs.2.1, ih hs.2.2⟩

theorem concat (hs : Row a ss m) (hm : m ≤ s.start) (h : s.start ≤ s.stop) :
    Row a (ss ++ [s]) s.stop := by
  apply hs.append
  exact ⟨hm, h, Nat.le_refl _⟩

theorem split (h : Row a (ss ++ ts) b) : ∃ m, Row a ss m ∧ Row m ts b := by
  induction ss generalizing a with
  | nil => exact ⟨a, Nat.le_refl _, h⟩
  | cons s ss ih =>
    obtain ⟨m, hs, ht⟩ := ih h.2.2
    exact ⟨m, ⟨h.1, h.2.1, hs⟩, ht⟩

theorem tight (h : Row a ss b) (hs : ss.head? = some s) (ht : ss.getLast? = some t) :
    Row s.start ss t.stop := by
  obtain ⟨init, rfl⟩ : ∃ init, ss = init ++ [t] := List.getLast?_eq_some_iff.1 ht
  have hstart : Row s.start (init ++ [t]) b := by
    cases init with
    | nil =>
      cases hs
      exact ⟨Nat.le_refl _, h.2⟩
    | cons u init =>
      cases hs
      exact ⟨Nat.le_refl _, h.2⟩
  obtain ⟨m, hinit, hlast⟩ := hstart.split
  exact hinit.concat hlast.1 hlast.2.1

theorem bounds (h : Row a ss b) (hs : s ∈ ss) : a ≤ s.start ∧ s.start ≤ s.stop ∧ s.stop ≤ b := by
  induction ss generalizing a with
  | nil => contradiction
  | cons t ss ih =>
    cases hs with
    | head => exact ⟨h.1, h.2.1, h.2.2.le⟩
    | tail _ hs =>
      have := ih h.2.2 hs
      have := h.1
      have := h.2.1
      omega

theorem pairwise (h : Row a ss b) : ss.Pairwise fun s t => s.stop ≤ t.start := by
  induction ss generalizing a with
  | nil => exact .nil
  | cons s ss ih =>
    apply List.Pairwise.cons
    · intro t ht
      exact (h.2.2.bounds ht).1
    · exact ih h.2.2

end Row

structure Within (inner outer : Span) : Prop where
  start : outer.start ≤ inner.start
  stop : inner.stop ≤ outer.stop

namespace Within

variable {s t u : Span}

theorem refl (s : Span) : s.Within s :=
  ⟨Nat.le_refl _, Nat.le_refl _⟩

theorem trans (h : s.Within t) (h' : t.Within u) : s.Within u :=
  ⟨Nat.le_trans h'.start h.start, Nat.le_trans h.stop h'.stop⟩

theorem merge_left (s t : Span) : s.Within (s.merge t) :=
  ⟨Nat.min_le_left _ _, Nat.le_max_left _ _⟩

theorem merge_right (s t : Span) : t.Within (s.merge t) :=
  ⟨Nat.min_le_right _ _, Nat.le_max_right _ _⟩

theorem merge (hs : s.Within u) (ht : t.Within u) : (s.merge t).Within u :=
  ⟨Nat.le_min.2 ⟨hs.start, ht.start⟩, Nat.max_le.2 ⟨hs.stop, ht.stop⟩⟩

end Within

end SqlScript.Span

namespace SqlScript

namespace Token

@[simp]
theorem byteLength_nil : byteLength [] = 0 :=
  rfl

theorem foldl_utf8Size (cs : List Char) (n : Nat) :
    cs.foldl (fun n c => n + c.utf8Size) n = n + byteLength cs := by
  unfold byteLength
  induction cs generalizing n with
  | nil => rfl
  | cons c cs ih =>
    rw [List.foldl_cons, List.foldl_cons, ih, ih (0 + c.utf8Size)]
    omega

@[simp]
theorem byteLength_cons (c : Char) (cs : List Char) :
    byteLength (c :: cs) = c.utf8Size + byteLength cs := by
  unfold byteLength
  rw [List.foldl_cons, foldl_utf8Size, Nat.zero_add]
  rfl

@[simp]
theorem byteLength_append (cs ds : List Char) :
    byteLength (cs ++ ds) = byteLength cs + byteLength ds := by
  induction cs with
  | nil => simp
  | cons c cs ih => simp [ih, Nat.add_assoc]

theorem byteLength_eq (cs : List Char) : byteLength cs = (String.ofList cs).utf8ByteSize := by
  induction cs with
  | nil => rfl
  | cons c cs ih =>
    rw [byteLength_cons, ih, String.ofList_cons]
    simp

theorem byteLength_toList (source : String) : byteLength source.toList = source.utf8ByteSize := by
  rw [byteLength_eq, String.ofList_toList]

theorem append_inj_of_byteLength {front front' rest rest' : List Char}
    (h : front ++ rest = front' ++ rest') (hlength : byteLength front = byteLength front') :
    front = front' ∧ rest = rest' := by
  induction front generalizing front' with
  | nil =>
    cases front' with
    | nil => exact ⟨rfl, h⟩
    | cons c cs =>
      have := c.utf8Size_pos
      simp at hlength
      omega
  | cons c cs ih =>
    cases front' with
    | nil =>
      have := c.utf8Size_pos
      simp at hlength
      omega
    | cons c' cs' =>
      obtain ⟨rfl, hrest⟩ := List.cons.inj h
      rw [byteLength_cons, byteLength_cons] at hlength
      obtain ⟨rfl, rfl⟩ := ih hrest (Nat.add_left_cancel hlength)
      exact ⟨rfl, rfl⟩

end Token

open Token

/--
The offset lies in front of a character of the text, or behind the last one.
-/
def Text.Place (text : List Char) (offset : Nat) : Prop :=
  ∃ before after, text = before ++ after ∧ offset = byteLength before

namespace Text.Place

variable {text : List Char}

theorem zero : Place text 0 :=
  ⟨[], text, rfl, rfl⟩

theorem size : Place text (byteLength text) :=
  ⟨text, [], by simp, rfl⟩

theorem le {offset : Nat} (h : Place text offset) : offset ≤ byteLength text := by
  obtain ⟨before, after, rfl, rfl⟩ := h
  simp

end Text.Place

def Span.On (text : List Char) (s : Span) : Prop :=
  Text.Place text s.start ∧ Text.Place text s.stop

structure Span.Proper (text : List Char) (s : Span) : Prop where
  on : s.On text
  le : s.start ≤ s.stop

theorem Span.Proper.merge {text : List Char} {s t : Span} (hs : s.Proper text)
    (ht : t.Proper text) : (s.merge t).Proper text := by
  have hstart : (s.merge t).start = s.start ∨ (s.merge t).start = t.start := by
    unfold Span.merge
    dsimp only
    omega
  have hstop : (s.merge t).stop = s.stop ∨ (s.merge t).stop = t.stop := by
    unfold Span.merge
    dsimp only
    omega
  constructor
  · constructor
    · obtain h | h := hstart
      · rw [h]
        exact hs.on.1
      · rw [h]
        exact ht.on.1
    · obtain h | h := hstop
      · rw [h]
        exact hs.on.2
      · rw [h]
        exact ht.on.2
  · exact Nat.le_trans (Nat.min_le_left _ _) (Nat.le_trans hs.le (Nat.le_max_left _ _))

namespace Token

variable {d : Dialect}

theorem gapItem?_drop {c : Char} {cs rest : List Char} (h : cs.drop (gapLength d cs) = c :: rest) :
    gapItem? d c rest = none := by
  induction hlen : cs.length using Nat.strongRecOn generalizing cs with
  | ind n ih =>
  cases cs with
  | nil => simp at h
  | cons a cs =>
    cases hitem : gapItem? d a cs with
    | none =>
      rw [gapLength_none hitem, List.drop_zero] at h
      cases h
      exact hitem
    | some more =>
      rw [gapLength_some hitem, Nat.add_comm more 1, Nat.add_assoc, Nat.add_comm 1,
        List.drop_succ_cons, ← List.drop_drop] at h
      rw [List.length_cons] at hlen
      apply ih _ _ h rfl
      rw [List.length_drop]
      omega

theorem scan_nil {offset : Nat} {before : Option Char} {cs : List Char}
    (h : cs.drop (gapLength d cs) = []) : scan d offset before cs = [] := by
  rw [scan]
  split
  · rfl
  · rename_i h'
    rw [h] at h'
    contradiction

theorem scan_cons {offset : Nat} {before : Option Char} {gap cs rest : List Char} {c : Char}
    {l : Lexeme} (hgap : cs.take (gapLength d cs) = gap) (h : cs.drop (gapLength d cs) = c :: rest)
    (hl : lexeme d ((gap.getLast?.or before).any endsName) c rest = l) :
    scan d offset before cs =
      ⟨l.kind, offset + byteLength gap,
        offset + byteLength gap + byteLength (c :: rest.take l.more)⟩ ::
      scan d (offset + byteLength gap + byteLength (c :: rest.take l.more))
        ((rest.take l.more).getLast?.or (some c)) (rest.drop l.more) := by
  subst hgap hl
  rw [scan]
  split
  · rename_i h'
    rw [h] at h'
    contradiction
  · rename_i h'
    rw [h] at h'
    cases h'
    rfl

theorem scan_spans {text behind cs : List Char} (htext : text = behind ++ cs)
    (before : Option Char) :
    Span.Row (byteLength behind) ((scan d (byteLength behind) before cs).map Token.span)
        (byteLength text) ∧
      ∀ t ∈ scan d (byteLength behind) before cs, t.span.On text := by
  induction hlen : cs.length using Nat.strongRecOn generalizing behind cs before with
  | ind n ih =>
  generalize hgap : cs.take (gapLength d cs) = gap
  cases hdrop : cs.drop (gapLength d cs) with
  | nil =>
    rw [scan_nil hdrop, htext, byteLength_append]
    exact ⟨Nat.le_add_right _ _, by simp⟩
  | cons c rest =>
    generalize hl : lexeme d ((gap.getLast?.or before).any endsName) c rest = l
    have hcs : cs = gap ++ c :: (rest.take l.more ++ rest.drop l.more) := by
      rw [List.take_append_drop, ← hdrop, ← hgap, List.take_append_drop]
    have hstop : byteLength behind + byteLength gap + byteLength (c :: rest.take l.more) =
        byteLength (behind ++ gap ++ c :: rest.take l.more) := by
      simp [Nat.add_assoc]
    have hrest : text = behind ++ gap ++ c :: rest.take l.more ++ rest.drop l.more := by
      rw [htext, hcs]
      simp
    have hlt : (rest.drop l.more).length < n := by
      rw [← hlen, hcs]
      simp
      omega
    rw [scan_cons hgap hdrop hl, hstop]
    obtain ⟨hrow, hon⟩ := ih _ hlt hrest ((rest.take l.more).getLast?.or (some c)) rfl
    constructor
    · refine ⟨?_, ?_, hrow⟩
      · simp
      · simp
    · intro t ht
      cases ht with
      | head =>
        refine ⟨⟨behind ++ gap, c :: rest, ?_, by simp⟩, ⟨_, _, hrest, rfl⟩⟩
        rw [hrest]
        simp
      | tail _ ht => exact hon t ht

theorem scan_ne_eof (offset : Nat) (before : Option Char) (cs : List Char) :
    ∀ t ∈ scan d offset before cs, t.kind ≠ .eof := by
  induction hlen : cs.length using Nat.strongRecOn generalizing offset cs before with
  | ind n ih =>
  cases hdrop : cs.drop (gapLength d cs) with
  | nil =>
    rw [scan_nil hdrop]
    exact nofun
  | cons c rest =>
    have hlt : ∀ k, (rest.drop k).length < n := by
      intro k
      have := congrArg List.length hdrop
      simp at this ⊢
      omega
    rw [scan_cons rfl hdrop rfl]
    intro t ht
    cases ht with
    | head => exact lexeme_ne_eof _ c rest
    | tail _ ht => exact ih _ (hlt _) _ _ _ rfl t ht

theorem exists_tokenize (d : Dialect) (source : String) :
    ∃ ts, tokenize d source = ts ++ [eof source.utf8ByteSize] ∧
      Span.Row 0 (ts.map Token.span) source.utf8ByteSize ∧
      ∀ t ∈ ts, t.span.On source.toList ∧ t.kind ≠ .eof := by
  obtain ⟨hrow, hon⟩ := scan_spans (d := d) (List.nil_append source.toList).symm none
  rw [byteLength_toList] at hrow
  refine ⟨_, rfl, hrow, ?_⟩
  intro t ht
  exact ⟨hon t ht, scan_ne_eof _ _ _ t ht⟩

end Token

end SqlScript
