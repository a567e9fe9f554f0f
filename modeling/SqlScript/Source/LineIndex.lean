import SqlScript.Source.Span
import SqlScript.Text.Bisect

/-!
Lines and columns of byte offsets. A text is indexed once; every offset is then resolved by two
bisections, however long its line is.
-/

namespace SqlScript

/--
A place in a text. Lines are counted from the baseline of the text, columns count characters and
start at one, the offset counts bytes.
-/
structure Position where
  line : Nat
  column : Nat
  offset : Nat
  deriving DecidableEq, Repr, Inhabited

/--
Where the lines of a text start and how its wide characters, those of more than one byte, shift
columns against offsets.
-/
structure LineIndex where
  /-- Line number of the first line, at least one. -/
  baseline : Nat
  /-- Length of the text in bytes. -/
  size : Nat
  /-- Offset of the first byte of each line, in increasing order. -/
  lineStarts : Array Nat
  /--
  Offset of each wide character, in increasing order, with the number of continuation bytes up to
  and including that character.
  -/
  wide : Array (Nat × Nat)

namespace LineIndex

def empty (baseline : Nat) : LineIndex where
  baseline := max baseline 1
  size := 0
  lineStarts := #[0]
  wide := #[]

def continuationBytes (index : LineIndex) (offset : Nat) : Nat :=
  match Text.bisect index.wide (·.1 < offset) with
  | 0 => 0
  | n + 1 => (index.wide[n]?.map (·.2)).getD 0

def push (index : LineIndex) (c : Char) : LineIndex :=
  { index with
    size := index.size + c.utf8Size
    lineStarts :=
      if c = '\n' then index.lineStarts.push (index.size + c.utf8Size) else index.lineStarts
    wide :=
      if 1 < c.utf8Size then
        index.wide.push (index.size, (index.wide.back?.map (·.2)).getD 0 + (c.utf8Size - 1))
      else
        index.wide }

/--
Index a text whose first line has the number `baseline`; zero counts as one.
-/
def ofString (source : String) (baseline : Nat) : LineIndex :=
  source.toList.foldl push (empty baseline)

/--
Resolve an offset; those behind the end of the text resolve to its end.
-/
def position (index : LineIndex) (offset : Nat) : Position :=
  let offset := min offset index.size
  let line := Text.bisect index.lineStarts (· ≤ offset) - 1
  let lineStart := index.lineStarts[line]?.getD 0
  let continuation := index.continuationBytes offset - index.continuationBytes lineStart
  ⟨index.baseline + line, offset - lineStart - continuation + 1, offset⟩

def positions (index : LineIndex) (span : Span) : Position × Position :=
  (index.position span.start, index.position span.stop)

@[simp]
theorem baseline_push (index : LineIndex) (c : Char) : (index.push c).baseline = index.baseline :=
  rfl

theorem baseline_foldl_push (cs : List Char) (index : LineIndex) :
    (cs.foldl push index).baseline = index.baseline := by
  induction cs generalizing index with
  | nil => rfl
  | cons c cs ih => simp [ih]

@[simp]
theorem baseline_ofString (source : String) (baseline : Nat) :
    (ofString source baseline).baseline = max baseline 1 := by
  simp [ofString, baseline_foldl_push, empty]

end LineIndex

end SqlScript
