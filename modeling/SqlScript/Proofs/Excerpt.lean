import SqlScript.Proofs.Position
import SqlScript.Statement.Excerpt

/-!
Excerpts that tell the truth about the script they are from.
-/

namespace SqlScript

open Token

theorem Span.slice_eq {source : String} {before inside after : List Char}
    (h : source.toList = before ++ inside ++ after) :
    Span.slice ⟨byteLength before, byteLength (before ++ inside)⟩ source = String.ofList inside := by
  have hsource : source = String.ofList before ++ String.ofList inside ++ String.ofList after := by
    rw [← String.ofList_append, ← String.ofList_append, ← h, String.ofList_toList]
  have hstart : String.Pos.Raw.IsValid source ⟨byteLength before⟩ := by
    apply String.Pos.Raw.isValid_iff_exists_append.2
    refine ⟨String.ofList before, String.ofList inside ++ String.ofList after, ?_, ?_⟩
    · rw [hsource, String.append_assoc]
    · rw [byteLength_eq]
      rfl
  have hstop : String.Pos.Raw.IsValid source ⟨byteLength (before ++ inside)⟩ := by
    apply String.Pos.Raw.isValid_iff_exists_append.2
    refine ⟨String.ofList (before ++ inside), String.ofList after, ?_, ?_⟩
    · rw [hsource, String.ofList_append]
    · rw [byteLength_eq]
      rfl
  unfold slice
  rw [dif_pos ⟨hstart, hstop⟩, ← String.toByteArray_inj, String.toByteArray_extract]
  change source.toByteArray.extract (byteLength before) (byteLength (before ++ inside)) = _
  rw [byteLength_append, byteLength_eq, byteLength_eq inside, hsource, String.append_assoc,
    String.toByteArray_append, String.toByteArray_append, ← String.size_toByteArray,
    ← String.size_toByteArray]
  exact (ByteArray.extract_append_size_add (i := 0)).trans (ByteArray.extract_append_eq_left rfl)

/--
The excerpt is of these characters, behind those before them, and says so: its text is what stands
there, lines and columns are found by counting, offsets count bytes.
-/
structure Excerpt.Faithful (source : String) (baseline : Nat) (flavor : Flavor) (e : Excerpt) :
    Prop where
  flavor : e.flavor = flavor
  start_le_stop : e.start.offset ≤ e.stop.offset
  stop_le_size : e.stop.offset ≤ source.utf8ByteSize
  counted : ∃ before inside after, source.toList = before ++ inside ++ after ∧
    e.text = String.ofList inside ∧ e.start = .behind baseline before ∧
    e.stop = .behind baseline (before ++ inside)

namespace Context

variable {c : Context} {source : String} {baseline : Nat} {flavor : Flavor}

theorem exists_cut {text : List Char} {s : Span} (h : s.Proper text) :
    ∃ before inside after, text = before ++ inside ++ after ∧
      s = ⟨byteLength before, byteLength (before ++ inside)⟩ := by
  obtain ⟨start, stop⟩ := s
  obtain ⟨⟨⟨before, rest, htext, rfl⟩, upTo, after, htext', rfl⟩, hle⟩ := h
  obtain ⟨inside, rfl, hrest⟩ | ⟨back, rfl, hafter⟩ :=
    List.append_eq_append_iff.1 (htext.symm.trans htext')
  · exact ⟨before, inside, after, htext', rfl⟩
  · have hback : back = [] := by
      have := Text.length_le_byteLength back
      have hle : byteLength (upTo ++ back) ≤ byteLength upTo := hle
      rw [byteLength_append] at hle
      apply List.eq_nil_of_length_eq_zero
      omega
    subst hback
    refine ⟨upTo, [], after, ?_, ?_⟩
    · rw [htext', List.append_nil]
    · rw [List.append_nil]

theorem span_excerpt {s : Span} (h : s.On source.toList) :
    ((ofString source baseline flavor).excerpt s).span = s := by
  obtain ⟨start, stop⟩ := s
  obtain ⟨⟨before, _, hbefore, rfl⟩, upTo, _, hupTo, rfl⟩ := h
  unfold excerpt ofString LineIndex.positions Excerpt.span
  dsimp only
  rw [LineIndex.position_ofString hbefore, LineIndex.position_ofString hupTo]
  rfl

theorem excerpt_ofString {before inside after : List Char}
    (h : source.toList = before ++ inside ++ after) :
    (ofString source baseline flavor).excerpt ⟨byteLength before, byteLength (before ++ inside)⟩ =
      ⟨.behind baseline before, .behind baseline (before ++ inside), String.ofList inside,
        flavor⟩ := by
  have hbefore := LineIndex.position_ofString (h.trans (List.append_assoc before inside after))
    baseline
  have hinside := LineIndex.position_ofString h baseline
  unfold excerpt ofString LineIndex.positions
  dsimp only
  rw [hbefore, hinside, Span.slice_eq h]

theorem faithful_excerpt {s : Span} (h : s.Proper source.toList) :
    ((ofString source baseline flavor).excerpt s).Faithful source baseline flavor := by
  have hle := h.le
  have hsize := h.on.2.le
  rw [byteLength_toList] at hsize
  obtain ⟨before, inside, after, htext, rfl⟩ := exists_cut h
  rw [excerpt_ofString htext]
  exact ⟨rfl, hle, hsize, before, inside, after, htext, rfl, rfl, rfl⟩

end Context

end SqlScript
