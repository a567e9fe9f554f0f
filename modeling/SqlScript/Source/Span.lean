/-!
Byte ranges of a source text.
-/

namespace SqlScript

/--
The bytes of a text from `start` up to, but not including, `stop`. Offsets count bytes of the UTF-8
encoding.
-/
structure Span where
  start : Nat
  stop : Nat
  deriving DecidableEq, Repr, Inhabited

namespace Span

def empty (offset : Nat) : Span :=
  ⟨offset, offset⟩

def length (s : Span) : Nat :=
  s.stop - s.start

def isEmpty (s : Span) : Bool :=
  s.start == s.stop

def merge (a b : Span) : Span :=
  ⟨min a.start b.start, max a.stop b.stop⟩

/--
The text under a span. It is empty if an end of the span lies outside the text or inside the
encoding of a character, and if the span runs backwards.
-/
def slice (s : Span) (source : String) : String :=
  if h : String.Pos.Raw.IsValid source ⟨s.start⟩ ∧ String.Pos.Raw.IsValid source ⟨s.stop⟩ then
    String.extract ⟨⟨s.start⟩, h.1⟩ ⟨⟨s.stop⟩, h.2⟩
  else
    ""

@[simp]
theorem isEmpty_empty (offset : Nat) : (empty offset).isEmpty := by
  simp [empty, isEmpty]

theorem merge_comm (a b : Span) : a.merge b = b.merge a := by
  simp [merge, Nat.min_comm, Nat.max_comm]

end Span

end SqlScript
